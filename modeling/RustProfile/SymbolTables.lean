import RustProfile.Lib.FifoCache
import RustProfile.Lib.Partition
import RustProfile.MapsRefresh
import RustProfile.Symbol

/-!
# The symbolizer

An address is looked up among the code of a jitdump, then among that of a perf
map, then in the modules of the process, whose files a loader reads. Resolved
addresses are cached; a refresh that reads new dynamic code clears the cache.
Loader and demangler are outside the repository.
-/

namespace RustProfile

/-! ## Loaders -/

structure LoaderFunction where
  rawName : Option String
  demangled : Option String

structure LoaderLocation where
  file : Option String
  line : Option UInt32

structure LoaderFrame where
  function : Option LoaderFunction
  location : Option LoaderLocation

/-- `addr2line::Loader`: the frames at an address up to the first error, and the symbol there. -/
structure Loader where
  findFrames : UInt64 → List LoaderFrame
  findSymbol : UInt64 → Option String

/-- `rustc_demangle`. -/
structure Demangler where
  tryDemangle : String → Option String

def Demangler.demangle (self : Demangler) (name : String) : String := (self.tryDemangle name).getD name

def LoaderFrame.line (demangler : Demangler) (frame : LoaderFrame) : Option SymbolizedLine :=
  let rawName := frame.function.bind LoaderFunction.rawName
  let name := (frame.function.bind LoaderFunction.demangled).or (rawName.map demangler.demangle)
  name.map fun function =>
    { function := function
      systemName := rawName.getD ""
      filename := frame.location.bind LoaderLocation.file
      line := ((frame.location.bind LoaderLocation.line).map fun line => (line.toNat : ℤ)).getD 0 }

def Loader.lookup (demangler : Demangler) (self : Loader) (address : UInt64) : List SymbolizedLine :=
  let lines := (self.findFrames address).filterMap (LoaderFrame.line demangler)
  if lines = [] then
    match self.findSymbol address with
    | some rawName =>
      [{ function := demangler.demangle rawName, systemName := rawName, filename := none, line := 0 }]
    | none => []
  else lines

/-! ## Tables -/

structure JitSymbol where
  start : UInt64
  stop : UInt64
  name : String
  deriving DecidableEq, Repr

structure ModuleSymbols where
  path : PathBuf
  mappings : List MapLine
  loadBias : UInt64
  buildId : Option String
  embedded : Option Loader
  external : Option Loader

/-- A mapping of one of the modules. -/
structure ModuleRange (modules : List ModuleSymbols) where
  start : UInt64
  stop : UInt64
  module : Fin modules.length
  mapping : Fin (modules.get module).mappings.length

structure SymbolTables where
  modules : List ModuleSymbols
  ranges : List (ModuleRange modules)
  jitSymbols : List JitSymbol
  jitdumpSymbols : List JitSymbol

/-- The symbol before the partition point, if it reaches up to the address. -/
def findJitSymbol (symbols : List JitSymbol) (address : UInt64) : Option JitSymbol :=
  (Partition.last (fun symbol => symbol.start ≤ address) symbols).filter fun symbol => address < symbol.stop

def pathOf (text : String) : PathBuf := ⟨text.toUTF8.toList⟩

def jitMappingInfo (symbol : JitSymbol) (source : String) : Option MappingInfo :=
  some {
    start := symbol.start
    limit := symbol.stop
    offset := 0
    relativeAddressAtStart := 0
    filename := pathOf source
    buildId := none }

def jitResolvedLocation (symbol : JitSymbol) (address : UInt64) (source : String) : ResolvedLocation where
  address := address
  mapping := some {
    start := symbol.start
    limit := symbol.stop
    offset := 0
    relativeAddressAtStart := 0
    filename := pathOf source
    buildId := none }
  lines := [{ function := symbol.name, systemName := symbol.name, filename := none, line := 0 }]

/-- `u64::saturating_sub`. -/
def saturatingSubU64 (a b : UInt64) : UInt64 := if b ≤ a then a - b else 0

/-- `u32::try_from(value).unwrap_or_default()`. -/
def narrowU32 (value : UInt64) : UInt32 := if value.toNat < 2 ^ 32 then UInt32.ofNat value.toNat else 0

namespace SymbolTables

variable (self : SymbolTables)

def rangeAt (address : UInt64) : Option (ModuleRange self.modules) :=
  (Partition.last (fun range => range.start ≤ address) self.ranges).filter fun range => address < range.stop

def mappingInfo (range : ModuleRange self.modules) : MappingInfo :=
  let module := self.modules.get range.module
  let mapping := module.mappings.get range.mapping
  { start := mapping.start
    limit := mapping.stop
    offset := mapping.offset
    relativeAddressAtStart := narrowU32 (saturatingSubU64 mapping.start module.loadBias)
    filename := module.path
    buildId := module.buildId }

def mappingForAddress (address : UInt64) : Option MappingInfo :=
  match findJitSymbol self.jitdumpSymbols address with
  | some symbol => jitMappingInfo symbol "[jit:jitdump]"
  | none =>
    match findJitSymbol self.jitSymbols address with
    | some symbol => jitMappingInfo symbol "[jit:perf-map]"
    | none => (self.rangeAt address).map self.mappingInfo

/-- What the module's loaders say: the embedded symbols first, else the external ones. -/
def moduleLines (demangler : Demangler) (module : ModuleSymbols) (address : UInt64) : List SymbolizedLine :=
  let objectAddress := saturatingSubU64 address module.loadBias
  let lines := (module.embedded.map fun loader => loader.lookup demangler objectAddress).getD []
  if lines = [] then (module.external.map fun loader => loader.lookup demangler objectAddress).getD [] else lines

def resolveUncached (demangler : Demangler) (address : UInt64) : ResolvedLocation :=
  match findJitSymbol self.jitdumpSymbols address with
  | some symbol => jitResolvedLocation symbol address "[jit:jitdump]"
  | none =>
    -- the lookup in the perf map is written out here, with the same comparisons
    match (Partition.last (fun symbol : JitSymbol => symbol.start ≤ address) self.jitSymbols).filter
      fun symbol => address < symbol.stop with
    | some symbol => jitResolvedLocation symbol address "[jit:perf-map]"
    | none =>
      match self.rangeAt address with
      | none => { address := address, mapping := none, lines := [] }
      | some range =>
        { address := address
          mapping := some (self.mappingInfo range)
          lines := moduleLines demangler (self.modules.get range.module) address }

end SymbolTables

/-! ## Dynamic code -/

/-- What a refresh finds: the clock in nanoseconds, when the perf map was modified, what loading it gives, the jitdump's
fingerprint and its symbols. -/
structure DynamicFiles where
  now : ℕ
  modified : Option ℕ
  perfMap : Option ℕ × List JitSymbol
  fingerprint : List (PathBuf × ℕ × ℕ)
  jitdump : List JitSymbol

def resolvedCacheCapacity : ℕ := 65536
def jitRefreshNanos : ℕ := 5000000000

/-- A `Symbolizer` with its caches. -/
structure SymbolCache where
  tables : SymbolTables
  resolved : Table UInt64 ResolvedLocation := ∅
  resolvedOrder : List UInt64 := []
  perfMapPath : Option PathBuf
  perfMapModified : Option ℕ
  perfMapChecked : ℕ
  jitdumpFingerprint : List (PathBuf × ℕ × ℕ)

namespace SymbolCache

variable (demangler : Demangler) (self : SymbolCache)

def resolve (address : UInt64) : ResolvedLocation × SymbolCache :=
  match self.resolved.lookup address with
  | some resolved => (resolved, self)
  | none =>
    let resolved := self.tables.resolveUncached demangler address
    let self :=
      if self.resolved.size ≥ resolvedCacheCapacity then
        match self.resolvedOrder with
        | expired :: order => { self with resolved := self.resolved.erase expired, resolvedOrder := order }
        | [] => self
      else self
    (resolved, { self with
      resolved := self.resolved.insert address resolved
      resolvedOrder := self.resolvedOrder ++ [address] })

def refreshPerfMap (files : DynamicFiles) : SymbolCache :=
  if self.perfMapPath.isSome ∧ files.modified.isSome ∧ files.modified ≠ self.perfMapModified then
    { self with
      perfMapModified := files.perfMap.1
      tables := { self.tables with jitSymbols := files.perfMap.2 }
      resolved := ∅
      resolvedOrder := [] }
  else self

def refreshJitdump (files : DynamicFiles) : SymbolCache :=
  if files.fingerprint ≠ self.jitdumpFingerprint then
    { self with
      jitdumpFingerprint := files.fingerprint
      tables := { self.tables with jitdumpSymbols := files.jitdump }
      resolved := ∅
      resolvedOrder := [] }
  else self

/-- At most once in five seconds. -/
def refreshDynamicSymbols (files : DynamicFiles) : SymbolCache :=
  if files.now - self.perfMapChecked < jitRefreshNanos then self
  else ({ self with perfMapChecked := files.now }.refreshPerfMap files).refreshJitdump files

def mappingForAddress (address : UInt64) : Option MappingInfo := self.tables.mappingForAddress address

end SymbolCache

end RustProfile
