import RustProfile.Ints
import RustProfile.SymbolTables

/-!
# Load biases

The kernel maps the pages of an ELF image's segments at a bias. The symbolizer
and the unwinder work the bias out again from the executable mappings: they look
for a segment that starts in the page of the file where a mapping starts.
-/

namespace RustProfile

/-- `address & !0xfff`. -/
def page (address : UInt64) : UInt64 := address &&& ~~~0xfff

/-- `u64::checked_sub`. -/
def checkedSubU64 (a b : UInt64) : Option UInt64 := if b ≤ a then some (a - b) else none

/-- `u64::checked_add`. -/
def checkedAddU64 (a b : UInt64) : Option UInt64 := if a.toNat + b.toNat ≤ u64Max then some (a + b) else none

/-- A `PT_LOAD` segment, with its permissions as the maps show them. -/
structure Segment where
  offset : UInt64
  fileSize : UInt64
  address : UInt64
  permissions : List UInt8
  deriving DecidableEq, Repr

def Segment.isExecutable (segment : Segment) : Bool := segment.permissions[2]? = some 120

/-- An image whose segments stand at increasing addresses, at the same place of a page in the file and in memory. -/
structure ElfImage where
  segments : List Segment
  relativeAddressBase : UInt64
  congruent : ∀ segment ∈ segments, segment.offset.toNat % 4096 = segment.address.toNat % 4096
  increasing : segments.Pairwise fun a b => a.address.toNat + a.fileSize.toNat ≤ b.address.toNat

/-- The executable mappings of a file, as both `from_maps` group them. -/
def moduleMappings (path : PathBuf) (maps : List MapLine) : List MapLine :=
  maps.filter fun mapping => mapping.isRelevant && mapping.path.map PathBuf.components = some path.components

def elfLoadBias (segments : List Segment) : List MapLine → Option UInt64
  | [] => none
  | mapping :: mappings =>
    match segments.find? fun segment => page segment.offset = page mapping.offset with
    | some segment => checkedSubU64 mapping.start (page segment.address)
    | none => elfLoadBias segments mappings

def elfBaseAvma (image : ElfImage) : List MapLine → Option UInt64
  | [] => none
  | mapping :: mappings =>
    match image.segments.find? fun segment => page segment.offset = page mapping.offset with
    | some segment => do
      let segmentPage := page segment.address
      let loadBias ← checkedSubU64 mapping.start segmentPage
      checkedAddU64 loadBias image.relativeAddressBase
    | none => elfBaseAvma image mappings

/-! ## The kernel -/

/-- A segment of which a page is mapped, and where its pages end. -/
structure MappedSegment where
  segment : Segment
  stop : UInt64
  deriving DecidableEq, Repr

def Segment.pagesStop (segment : Segment) : UInt64 := page (segment.address + segment.fileSize + 0xfff)

/-- Each segment is mapped over the ones before it, so a page that two share is the later one's. -/
def mapSegments : List Segment → List MappedSegment
  | [] => []
  | segment :: segments =>
    let mapped := mapSegments segments
    let stop := mapped.head?.elim segment.pagesStop fun next => min segment.pagesStop (page next.segment.address)
    if page segment.address < stop then { segment := segment, stop := stop } :: mapped else mapped

/-- Neighbours with the same permissions may be shown as one when they go on in memory and in the file. -/
inductive Merged : List MapLine → List MapLine → Prop
  | nil : Merged [] []
  | keep {mapping mappings shown} : Merged mappings shown → Merged (mapping :: mappings) (mapping :: shown)
  | join {a b mappings shown} : a.stop = b.start → b.offset = a.offset + (b.start - a.start) →
    a.permissions = b.permissions → Merged ({ a with stop := b.stop } :: mappings) shown →
    Merged (a :: b :: mappings) shown

/-- An image that the kernel has loaded, with the lines of the process's maps. -/
structure LoadedImage where
  image : ElfImage
  bias : UInt64
  path : PathBuf
  device : String
  inode : UInt64
  maps : List MapLine

namespace LoadedImage

variable (self : LoadedImage)

def line (mapped : MappedSegment) : MapLine where
  start := self.bias + page mapped.segment.address
  stop := self.bias + mapped.stop
  permissions := mapped.segment.permissions
  offset := page mapped.segment.offset
  device := self.device
  inode := self.inode
  path := some self.path

def mapped : List MappedSegment := (mapSegments self.image.segments).filter fun mapped => mapped.segment.isExecutable

def mappings : List MapLine := moduleMappings self.path self.maps

structure Loaded (loaded : LoadedImage) : Prop where
  aligned : page loaded.bias = loaded.bias
  fits : ∀ segment ∈ loaded.image.segments,
    loaded.bias.toNat + segment.address.toNat + segment.fileSize.toNat < 2 ^ 63
  baseFits : loaded.bias.toNat + loaded.image.relativeAddressBase.toNat < 2 ^ 63
  shown : Merged (loaded.mapped.map loaded.line) loaded.mappings

/-- Both sides find the bias, and an address is looked up at its place in the image. -/
structure TrueBias (loaded : LoadedImage) : Prop where
  loadBias : elfLoadBias loaded.image.segments loaded.mappings = some loaded.bias
  baseAvma : elfBaseAvma loaded.image loaded.mappings = some (loaded.bias + loaded.image.relativeAddressBase)
  lookup : ∀ (demangler : Demangler) (module : ModuleSymbols) (address : UInt64), loaded.bias ≤ address →
    elfLoadBias loaded.image.segments loaded.mappings = some module.loadBias →
    SymbolTables.moduleLines demangler module address =
      SymbolTables.moduleLines demangler { module with loadBias := 0 } (address - loaded.bias)

end LoadedImage

/-- The first executable segment that is mapped starts in the same page of the memory as the first segment that starts
in its page of the file. -/
def ElfImage.FirstInFilePage (image : ElfImage) : Prop :=
  ∃ mapped segment, (mapSegments image.segments).find? (fun mapped => mapped.segment.isExecutable) = some mapped ∧
    image.segments.find? (fun segment => page segment.offset = page mapped.segment.offset) = some segment ∧
    page segment.address = page mapped.segment.address

end RustProfile
