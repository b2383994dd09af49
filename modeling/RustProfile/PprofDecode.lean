import RustProfile.PprofSound

/-!
# Reading profiles

A profile is read through its own tables only: `decodeSample` and
`decodeLocation` look up every number a sample or a location holds. What a
writer was given comes back, as far as a profile records it.
-/

namespace RustProfile

open Interning

/-! ## Decoding -/

/-- A line as a profile records it: a missing file name is empty. -/
structure RecordedLine where
  function : String
  systemName : String
  filename : String
  line : ℤ
  deriving DecidableEq, Repr

def SymbolizedLine.recorded (self : SymbolizedLine) : RecordedLine where
  function := self.function
  systemName := self.systemName
  filename := self.filename.getD ""
  line := self.line

/-- A mapping as a profile records it: the path is text and a missing build id is empty. -/
structure RecordedMapping where
  start : UInt64
  limit : UInt64
  offset : UInt64
  filename : String
  buildId : String
  deriving DecidableEq, Repr

def MappingInfo.recorded (self : MappingInfo) : RecordedMapping where
  start := self.start
  limit := self.limit
  offset := self.offset
  filename := self.filename.toStringLossy
  buildId := self.buildId.getD ""

namespace Profile

variable (p : Profile)

def string (index : ℕ) : Option String := p.stringTable[index]?

def functionById (id : ℕ) : Option Function := byId Function.id p.function id

def mappingById (id : ℕ) : Option Mapping := byId Mapping.id p.mapping id

def locationById (id : ℕ) : Option Location := byId Location.id p.location id

def decodeLine (l : Line) : Option RecordedLine := do
  let f ← p.functionById l.functionId
  let function ← p.string f.name
  let systemName ← p.string f.systemName
  let filename ← p.string f.filename
  some { function := function, systemName := systemName, filename := filename, line := l.line }

def decodeMapping (m : Mapping) : Option RecordedMapping := do
  let filename ← p.string m.filename
  let buildId ← p.string m.buildId
  some
    { start := m.memoryStart
      limit := m.memoryLimit
      offset := m.fileOffset
      filename := filename
      buildId := buildId }

/-- The id 0 is no mapping. -/
def decodeMappingId (id : ℕ) : Option (Option RecordedMapping) :=
  if id = 0 then some none else do
    let m ← p.mappingById id
    let mapping ← p.decodeMapping m
    some (some mapping)

def decodeLocation (l : Location) : Option (Option RecordedMapping × List RecordedLine) := do
  let mapping ← p.decodeMappingId l.mappingId
  let lines ← l.line.mapM p.decodeLine
  some (mapping, lines)

def decodeLabel (l : Label) : Option (String × String × ℤ) := do
  let key ← p.string l.key
  let str ← p.string l.str
  some (key, str, l.num)

def decodeSample (s : Sample) : Option SampleInput := do
  let addresses ← s.locationId.mapM fun id => (p.locationById id).map Location.address
  let labels ← s.label.mapM p.decodeLabel
  some { addresses := addresses, values := s.value, labels := labels }

def decodeSamples : Option (List SampleInput) := p.sample.mapM p.decodeSample

def decodeValueType (v : ValueType) : Option (String × String) := do
  let type ← p.string v.type
  let unit ← p.string v.unit
  some (type, unit)

def decodeHeader : Option ProfileHeader := do
  let sampleTypes ← p.sampleType.mapM p.decodeValueType
  let periodTypes ← p.periodType.toList.mapM p.decodeValueType
  let defaultSampleType ← p.string p.defaultSampleType
  let comments ← p.comment.mapM p.string
  some { sampleTypes := sampleTypes, periodType := periodTypes.head?, period := p.period,
         defaultSampleType := defaultSampleType, comments := comments }

/-- The strings of the heading. -/
def headingStrings : List ℕ :=
  (p.sampleType ++ p.periodType.toList).flatMap (fun v => [v.type, v.unit]) ++ p.defaultSampleType :: p.comment

end Profile

/-- The entry's strings are those of the key. -/
structure RecordsFunction (p : Profile) (key : FunctionKey) (f : Function) : Prop where
  name : p.string f.name = some key.1
  systemName : p.string f.systemName = some key.2.1
  filename : p.string f.filename = some (key.2.2.getD "")

/-- Every number in the profile refers to an entry, and the tables are in order. -/
structure WellFormed (p : Profile) : Prop where
  blank : p.stringTable.head? = some ""
  strings : p.stringTable.Nodup
  functionIds : p.function.map Function.id = List.range' 1 p.function.length
  mappingIds : p.mapping.map Mapping.id = List.range' 1 p.mapping.length
  locationIds : p.location.map Location.id = List.range' 1 p.location.length
  addresses : (p.location.map Location.address).Nodup
  functionStrings : ∀ f ∈ p.function, ∀ i ∈ [f.name, f.systemName, f.filename], i < p.stringTable.length
  mappingStrings : ∀ m ∈ p.mapping, ∀ i ∈ [m.filename, m.buildId], i < p.stringTable.length
  labelStrings : ∀ s ∈ p.sample, ∀ l ∈ s.label, ∀ i ∈ [l.key, l.str, l.numUnit], i < p.stringTable.length
  headingStrings : ∀ i ∈ p.headingStrings, i < p.stringTable.length
  lineFunctions : ∀ l ∈ p.location, ∀ line ∈ l.line, 1 ≤ line.functionId ∧ line.functionId ≤ p.function.length
  locationMappings : ∀ l ∈ p.location, l.mappingId ≤ p.mapping.length
  sampleLocations : ∀ s ∈ p.sample, ∀ id ∈ s.locationId, 1 ≤ id ∧ id ≤ p.location.length

/-- The mapping that stands for one in the profile: its path is spelled as at the first location with the key. -/
def ProfileRequest.spelled (request : ProfileRequest) (p : Profile) (info : MappingInfo) : MappingInfo :=
  (firstSpelling request.resolve (p.location.map Location.address) info.key).getD info

/-- No two of the locations spell the path of one mapping in two ways. -/
def ProfileRequest.SpelledOnce (request : ProfileRequest) (p : Profile) : Prop :=
  ∀ l ∈ p.location, ∀ l' ∈ p.location, ∀ info info', (request.resolve l.address).mapping = some info →
    (request.resolve l'.address).mapping = some info' → info.key = info'.key → info = info'

/-- A profile that says what the request says. -/
structure Decodes (request : ProfileRequest) (stats : ExportStats) (p : Profile) : Prop where
  wellFormed : WellFormed p
  timeNanos : p.timeNanos = request.timeNanos
  durationNanos : p.durationNanos = request.durationNanos
  header : p.decodeHeader = some request.header
  samples : p.decodeSamples = some request.samples.inputs
  locations : ∀ l ∈ p.location, p.decodeLocation l =
    some ((request.resolve l.address).mapping.map fun info => (request.spelled p info).recorded,
      (request.resolve l.address).lines.map SymbolizedLine.recorded)
  spelled : ∀ info, (request.spelled p info).key = info.key
  spelledOnce : request.SpelledOnce p → ∀ l ∈ p.location, ∀ info, (request.resolve l.address).mapping = some info →
    request.spelled p info = info
  functions : ∃ keys : List FunctionKey, keys.Nodup ∧ List.Forall₂ (RecordsFunction p) keys p.function ∧
    ∀ key, key ∈ keys ↔ ∃ l ∈ p.location, ∃ line ∈ (request.resolve l.address).lines, line.functionKey = key
  mappings : ∃ infos : List MappingInfo, (infos.map MappingInfo.key).Nodup ∧
    List.Forall₂ (fun info m => p.decodeMapping m = some info.recorded) infos p.mapping ∧
    ∀ info, info ∈ infos ↔ ∃ l ∈ p.location, ∃ i, (request.resolve l.address).mapping = some i ∧
      request.spelled p i = info
  flags : ∀ m ∈ p.mapping,
    FlagsFit ((p.location.filter (·.mappingId = m.id)).map fun l => request.resolve l.address) m
  total : stats.totalLocations = p.location.length
  symbolized : stats.symbolizedLocations = (p.location.filter fun l => !l.line.isEmpty).length

/-! ## The tables -/

section
variable {resolve : UInt64 → ResolvedLocation} {seen : List UInt64} {key : MappingInfo.Key} {info : MappingInfo}

theorem firstSpelling_key (h : firstSpelling resolve seen key = some info) : info.key = key := by
  unfold firstSpelling at h
  simpa using List.find?_some h

theorem mem_of_firstSpelling (h : firstSpelling resolve seen key = some info) :
    ∃ address ∈ seen, (resolve address).mapping = some info :=
  List.mem_filterMap.mp (List.mem_of_find?_eq_some h)

end

theorem ProfileRequest.spelled_key (request : ProfileRequest) (p : Profile) (info : MappingInfo) :
    (request.spelled p info).key = info.key := by
  unfold ProfileRequest.spelled
  cases hfirst : firstSpelling request.resolve (p.location.map Location.address) info.key with
  | none => rfl
  | some first => exact firstSpelling_key hfirst

theorem ProfileRequest.SpelledOnce.spelled_eq {request : ProfileRequest} {p : Profile} (h : request.SpelledOnce p)
    {l : Location} (hl : l ∈ p.location) {info : MappingInfo}
      (hinfo : (request.resolve l.address).mapping = some info) :
    request.spelled p info = info := by
  unfold ProfileRequest.spelled
  cases hfirst : firstSpelling request.resolve (p.location.map Location.address) info.key with
  | none => rfl
  | some first =>
    obtain ⟨a, ha, hmapping⟩ := mem_of_firstSpelling hfirst
    obtain ⟨l', hl', rfl⟩ := List.mem_map.mp ha
    exact h l' hl' l hl first info hmapping hinfo (firstSpelling_key hfirst)

section
variable {b : ProfileBuilder} {seen : List UInt64} (h : Built b seen)

include h

theorem Built.string {value : String} {index : ℕ} (hl : b.strings.lookup value = some index) :
    b.profile.string index = some value := by
  obtain ⟨j, e, rfl, he, rfl⟩ := h.strings.entry value index hl
  rw [Nat.zero_add]
  exact he

theorem Built.string_lt {value : String} {index : ℕ} (hl : b.strings.lookup value = some index) :
    index < b.profile.stringTable.length := by
  have := (h.strings.lt hl).2
  omega

theorem Built.nodup_strings : b.profile.stringTable.Nodup := by
  have := h.strings.nodup_map id fun k k' _ _ e e' _ _ he he' heq => by
    rw [← he, ← he']
    exact heq
  rwa [List.map_id] at this

theorem Built.line {line : SymbolizedLine} {l : Line} (hl : LineFits b.functions line l) :
    b.profile.decodeLine l = some line.recorded := by
  obtain ⟨f, hf, hfits⟩ := h.functions.byId Function.id (fun _ _ _ hf => hf.id) hl.function
  have hname := h.string hfits.name
  have hsystem := h.string hfits.systemName
  have hfile := h.string hfits.filename
  unfold Profile.decodeLine Profile.functionById
  rw [hf]
  change (b.profile.string f.name).bind _ = _
  rw [hname]
  change (b.profile.string f.systemName).bind _ = _
  rw [hsystem]
  change (b.profile.string f.filename).bind _ = _
  rw [hfile, hl.line]
  rfl

theorem Built.mapping {info : MappingInfo} {id : ℕ} {m : Mapping} (hm : MappingFits b.strings info id m) :
    b.profile.decodeMapping m = some info.recorded := by
  unfold Profile.decodeMapping
  rw [h.string hm.filename]
  change (b.profile.string m.buildId).bind _ = _
  rw [h.string hm.buildId, hm.start, hm.limit, hm.offset]
  rfl

theorem Built.label {label : String × String × ℤ} {l : Label} (hl : LabelFits b.strings label l) :
    b.profile.decodeLabel l = some label := by
  unfold Profile.decodeLabel
  rw [h.string hl.key]
  change (b.profile.string l.str).bind _ = _
  rw [h.string hl.str, hl.num]
  rfl

theorem Built.valueType {kind : String × String} {v : ValueType} (hv : ValueTypeFits b.strings kind v) :
    b.profile.decodeValueType v = some kind := by
  unfold Profile.decodeValueType
  rw [h.string hv.type]
  change (b.profile.string v.unit).bind _ = _
  rw [h.string hv.unit]
  rfl

theorem Built.header {header : ProfileHeader} (hh : HeadingFits b.strings header b.profile) :
    b.profile.decodeHeader = some header := by
  have htypes := mapM_of_forall₂ (hh.sampleType.imp fun _ _ hv => h.valueType hv)
  have hperiods := mapM_of_forall₂ (hh.periodType.imp fun _ _ hv => h.valueType hv)
  have hcomments := mapM_of_forall₂ (hh.comment.imp fun _ _ hi => h.string hi)
  unfold Profile.decodeHeader
  rw [htypes]
  change (b.profile.periodType.toList.mapM b.profile.decodeValueType).bind _ = _
  rw [hperiods]
  change (b.profile.string b.profile.defaultSampleType).bind _ = _
  rw [h.string hh.defaultSampleType]
  change (b.profile.comment.mapM b.profile.string).bind _ = _
  rw [hcomments, hh.period]
  change some _ = some _
  rw [Option.head?_toList]

theorem Built.location {l : Location} (hl : l ∈ b.profile.location) : LocationFits b l.address l.id l := by
  obtain ⟨j, hj, rfl⟩ := List.mem_iff_getElem.mp hl
  obtain ⟨address, -, hfits⟩ := h.locations.key (List.getElem?_eq_getElem hj)
  rw [hfits.atAddress]
  exact ⟨rfl, hfits.atAddress, hfits.isFolded, hfits.unmapped, hfits.mapped, hfits.lines⟩

theorem Built.decodeMappingId {l : Location} (hl : l ∈ b.profile.location) :
    b.profile.decodeMappingId l.mappingId = some ((b.resolve l.address).mapping.map fun info =>
      ((firstSpelling b.resolve seen info.key).getD info).recorded) := by
  have hfits := h.location hl
  unfold Profile.decodeMappingId
  cases hm : (b.resolve l.address).mapping with
  | none =>
    rw [if_pos (hfits.unmapped hm)]
    rfl
  | some info =>
    have hid := hfits.mapped info hm
    have hpos := (h.mappings.lt hid).1
    obtain ⟨m, hbyId, first, hfirst, hmapping⟩ := h.mappings.byId Mapping.id (fun _ _ _ hm => hm.choose_spec.2.id) hid
    rw [if_neg (by omega)]
    unfold Profile.mappingById
    rw [hbyId]
    change (b.profile.decodeMapping m).bind _ = _
    rw [h.mapping hmapping, Option.map_some, hfirst]
    rfl

theorem Built.decodeLocation {l : Location} (hl : l ∈ b.profile.location) :
    b.profile.decodeLocation l = some ((b.resolve l.address).mapping.map fun info =>
      ((firstSpelling b.resolve seen info.key).getD info).recorded,
      (b.resolve l.address).lines.map SymbolizedLine.recorded) := by
  have hlines : l.line.mapM b.profile.decodeLine = some ((b.resolve l.address).lines.map SymbolizedLine.recorded) := by
    refine mapM_of_forall₂ (List.forall₂_map_left_iff.mpr ?_)
    exact (h.location hl).lines.imp fun _ _ hline => h.line hline
  unfold Profile.decodeLocation
  rw [h.decodeMappingId hl]
  change (l.line.mapM b.profile.decodeLine).bind _ = _
  rw [hlines]
  rfl

/-- The locations of a mapping are those whose address was resolved into it. -/
theorem Built.mapped_iff {l : Location} (hl : l ∈ b.profile.location) {key : MappingInfo.Key} {id : ℕ}
    (hid : b.mappings.lookup key = some id) :
    l.mappingId = id ↔ (b.resolve l.address).mapping.map MappingInfo.key = some key := by
  have hfits := h.location hl
  cases hm : (b.resolve l.address).mapping with
  | none =>
    have hpos := (h.mappings.lt hid).1
    rw [hfits.unmapped hm]
    simp only [Option.map_none, reduceCtorEq, iff_false]
    omega
  | some info =>
    have hid' := hfits.mapped info hm
    rw [Option.map_some, Option.some.injEq]
    constructor
    · intro he
      rw [he] at hid'
      exact h.mappings.injective info.key key id hid' hid
    · intro he
      rw [he] at hid'
      exact Option.some.inj (hid'.symm.trans hid)

theorem Built.functionStrings {f : Function} (hf : f ∈ b.profile.function) :
    ∀ i ∈ [f.name, f.systemName, f.filename], i < b.profile.stringTable.length := by
  obtain ⟨j, hj, rfl⟩ := List.mem_iff_getElem.mp hf
  obtain ⟨key, -, hfits⟩ := h.functions.key (List.getElem?_eq_getElem hj)
  rw [List.forall_mem_cons, List.forall_mem_cons, List.forall_mem_singleton]
  exact ⟨h.string_lt hfits.name, h.string_lt hfits.systemName, h.string_lt hfits.filename⟩

theorem Built.mappingStrings {m : Mapping} (hm : m ∈ b.profile.mapping) :
    ∀ i ∈ [m.filename, m.buildId], i < b.profile.stringTable.length := by
  obtain ⟨j, hj, rfl⟩ := List.mem_iff_getElem.mp hm
  obtain ⟨key, -, info, -, hfits⟩ := h.mappings.key (List.getElem?_eq_getElem hj)
  rw [List.forall_mem_cons, List.forall_mem_singleton]
  exact ⟨h.string_lt hfits.filename, h.string_lt hfits.buildId⟩

theorem Built.locationMapping {l : Location} (hl : l ∈ b.profile.location) :
    l.mappingId ≤ b.profile.mapping.length := by
  have hfits := h.location hl
  cases hm : (b.resolve l.address).mapping with
  | none =>
    rw [hfits.unmapped hm]
    exact Nat.zero_le _
  | some info =>
    have hlt := (h.mappings.lt (hfits.mapped info hm)).2
    omega

theorem Built.lineFunctions {l : Location} (hl : l ∈ b.profile.location) :
    ∀ line ∈ l.line, 1 ≤ line.functionId ∧ line.functionId ≤ b.profile.function.length := by
  intro line hline
  obtain ⟨resolved, -, hfits⟩ := exists_of_forall₂_right (h.location hl).lines hline
  have hlt := h.functions.lt hfits.function
  omega

theorem Built.functionKeys (hseen : seen = b.profile.location.map Location.address) :
    ∃ keys : List FunctionKey, keys.Nodup ∧ List.Forall₂ (RecordsFunction b.profile) keys b.profile.function ∧
      ∀ key, key ∈ keys ↔
        ∃ l ∈ b.profile.location, ∃ line ∈ (b.resolve l.address).lines, line.functionKey = key := by
  obtain ⟨keys, hnodup, hmem, hfits⟩ := h.functions.keys
  refine ⟨keys, hnodup, hfits.imp ?_, fun key => (hmem key).trans ⟨?_, ?_⟩⟩
  · rintro key f ⟨i, -, hf⟩
    exact ⟨h.string hf.name, h.string hf.systemName, h.string hf.filename⟩
  · intro hkey
    obtain ⟨a, ha, hline⟩ := h.used key hkey
    rw [hseen] at ha
    obtain ⟨l, hl, rfl⟩ := List.mem_map.mp ha
    exact ⟨l, hl, hline⟩
  · rintro ⟨l, hl, line, hline, rfl⟩
    obtain ⟨entry, -, hfits⟩ := exists_of_forall₂_left (h.location hl).lines hline
    exact Table.mem_of_lookup hfits.function

theorem Built.mappingInfos (hseen : seen = b.profile.location.map Location.address) :
    ∃ infos : List MappingInfo, (infos.map MappingInfo.key).Nodup ∧
      List.Forall₂ (fun info m => b.profile.decodeMapping m = some info.recorded) infos b.profile.mapping ∧
      ∀ info, info ∈ infos ↔ ∃ l ∈ b.profile.location, ∃ i, (b.resolve l.address).mapping = some i ∧
        (firstSpelling b.resolve seen i.key).getD i = info := by
  obtain ⟨keys, hnodup, hmem, hfits⟩ := h.mappings.keys
  -- the infos are the first spellings of the keys, in the order of the keys
  have hspelled : ∀ key ∈ keys, ∃ info, firstSpelling b.resolve seen key = some info := by
    intro key hkey
    obtain ⟨m, -, i, -, info, hfirst, -⟩ := exists_of_forall₂_left hfits hkey
    exact ⟨info, hfirst⟩
  have hinfos : List.Forall₂ (fun info key => firstSpelling b.resolve seen key = some info)
      (keys.filterMap (firstSpelling b.resolve seen)) keys := by
    refine (forall₂_filterMap (P := fun _ => True) fun key hkey => ?_).imp fun _ _ hi => hi.2
    obtain ⟨info, hfirst⟩ := hspelled key hkey
    exact ⟨info, trivial, hfirst⟩
  have hkeys : (keys.filterMap (firstSpelling b.resolve seen)).map MappingInfo.key = keys := by
    refine List.forall₂_eq_eq_eq ▸ List.forall₂_map_left_iff.mpr (hinfos.imp fun info key hi => ?_)
    exact firstSpelling_key hi
  refine ⟨keys.filterMap (firstSpelling b.resolve seen), hkeys.symm ▸ hnodup, ?_, fun info => ⟨?_, ?_⟩⟩
  · refine forall₂_comp hinfos hfits fun info key m hi hm => ?_
    obtain ⟨i, -, first, hfirst, hmapping⟩ := hm
    rw [← Option.some.inj (hfirst.symm.trans hi)]
    exact h.mapping hmapping
  · intro hinfo
    obtain ⟨key, -, hfirst⟩ := List.mem_filterMap.mp hinfo
    obtain ⟨a, ha, hmapping⟩ := mem_of_firstSpelling hfirst
    rw [hseen] at ha
    obtain ⟨l, hl, rfl⟩ := List.mem_map.mp ha
    refine ⟨l, hl, info, hmapping, ?_⟩
    rw [firstSpelling_key hfirst, hfirst, Option.getD_some]
  · rintro ⟨l, hl, i, hmapping, rfl⟩
    have hkey := (hmem i.key).mpr (Table.mem_of_lookup ((h.location hl).mapped i hmapping))
    obtain ⟨info, hfirst⟩ := hspelled i.key hkey
    rw [hfirst, Option.getD_some]
    exact List.mem_filterMap.mpr ⟨i.key, hkey, hfirst⟩

theorem Built.flagsFit (hseen : seen = b.profile.location.map Location.address) {m : Mapping}
    (hm : m ∈ b.profile.mapping) :
    FlagsFit ((b.profile.location.filter (·.mappingId = m.id)).map fun l => b.resolve l.address) m := by
  obtain ⟨j, hj, rfl⟩ := List.mem_iff_getElem.mp hm
  obtain ⟨key, hid, info, -, hfits⟩ := h.mappings.key (List.getElem?_eq_getElem hj)
  have hflags := h.flags key (1 + j) _ hid (by rw [Nat.add_sub_cancel_left, List.getElem?_eq_getElem hj])
  have he : (b.profile.location.filter (·.mappingId = b.profile.mapping[j].id)).map (fun l => b.resolve l.address) =
      resolvedInto b seen key := by
    unfold resolvedInto
    rw [hseen, List.map_map, List.filter_map, hfits.id]
    congr 1
    refine List.filter_congr fun l hl => ?_
    rw [Bool.eq_iff_iff, decide_eq_true_eq]
    exact (h.mapped_iff hl hid).trans decide_eq_true_iff.symm
  rw [he]
  exact hflags

theorem Built.nodup_addresses : (b.profile.location.map Location.address).Nodup := by
  refine h.locations.nodup_map Location.address fun a a' _ _ l l' _ _ hl hl' heq => ?_
  rw [← hl.atAddress, ← hl'.atAddress, heq]

end

/-! ## The samples -/

section
variable {b : ProfileBuilder} {inputs : List SampleInput} (h : Writing b inputs)

include h

theorem Writing.decodeSample {input : SampleInput} {s : Sample} (hs : SampleFits b input s) :
    b.profile.decodeSample s = some input := by
  have hb := h.located.built
  have haddresses : s.locationId.mapM (fun id => (b.profile.locationById id).map Location.address) =
      some input.addresses := by
    refine mapM_of_forall₂ (hs.locations.imp fun address id hl => ?_)
    obtain ⟨l, hbyId, hfits⟩ := hb.locations.byId Location.id (fun _ _ _ hl => hl.id) hl
    unfold Profile.locationById
    rw [hbyId, Option.map_some, hfits.atAddress]
  have hlabels : s.label.mapM b.profile.decodeLabel = some input.labels :=
    mapM_of_forall₂ (hs.labels.imp fun _ _ hl => hb.label hl)
  unfold Profile.decodeSample
  rw [haddresses]
  change (s.label.mapM b.profile.decodeLabel).bind _ = _
  rw [hlabels, hs.values]
  rfl

theorem Writing.labelStrings {s : Sample} (hs : s ∈ b.profile.sample) :
    ∀ l ∈ s.label, ∀ i ∈ [l.key, l.str, l.numUnit], i < b.profile.stringTable.length := by
  have hb := h.located.built
  obtain ⟨input, -, hfits⟩ := exists_of_forall₂_right h.samples hs
  intro l hl
  obtain ⟨label, -, hlabel⟩ := exists_of_forall₂_right hfits.labels hl
  rw [List.forall_mem_cons, List.forall_mem_cons, List.forall_mem_singleton, hlabel.numUnit]
  exact ⟨hb.string_lt hlabel.key, hb.string_lt hlabel.str, hb.string_lt hb.blank⟩

theorem Writing.sampleLocations {s : Sample} (hs : s ∈ b.profile.sample) :
    ∀ id ∈ s.locationId, 1 ≤ id ∧ id ≤ b.profile.location.length := by
  obtain ⟨input, -, hfits⟩ := exists_of_forall₂_right h.samples hs
  intro id hid
  obtain ⟨address, -, hl⟩ := exists_of_forall₂_right hfits.locations hid
  have hlt := h.located.built.locations.lt hl
  omega

theorem Writing.headingStrings {header : ProfileHeader} (hh : HeadingFits b.strings header b.profile) :
    ∀ i ∈ b.profile.headingStrings, i < b.profile.stringTable.length := by
  have hb := h.located.built
  have hkind : ∀ {kinds : List (String × String)} {vs : List ValueType},
      List.Forall₂ (ValueTypeFits b.strings) kinds vs → ∀ v ∈ vs, ∀ i ∈ [v.type, v.unit],
        i < b.profile.stringTable.length := by
    intro kinds vs hvs v hv
    obtain ⟨kind, -, hfits⟩ := exists_of_forall₂_right hvs hv
    rw [List.forall_mem_cons, List.forall_mem_singleton]
    exact ⟨hb.string_lt hfits.type, hb.string_lt hfits.unit⟩
  intro i hi
  rcases List.mem_append.mp hi with hi | hi
  · obtain ⟨v, hv, hi⟩ := List.mem_flatMap.mp hi
    rcases List.mem_append.mp hv with hv | hv
    · exact hkind hh.sampleType v hv i hi
    · exact hkind hh.periodType v hv i hi
  · rcases List.mem_cons.mp hi with rfl | hi
    · exact hb.string_lt hh.defaultSampleType
    · obtain ⟨comment, -, hl⟩ := exists_of_forall₂_right hh.comment hi
      exact hb.string_lt hl

theorem Writing.wellFormed {header : ProfileHeader} (hh : HeadingFits b.strings header b.profile) :
    WellFormed b.profile := by
  have hb := h.located.built
  refine ⟨?_, hb.nodup_strings, hb.functions.map_ids fun _ _ _ hf => hf.id,
    hb.mappings.map_ids fun _ _ _ hm => hm.choose_spec.2.id,
    hb.locations.map_ids fun _ _ _ hl => hl.id, hb.nodup_addresses, fun f hf => hb.functionStrings hf,
    fun m hm => hb.mappingStrings hm, fun s hs => h.labelStrings hs, h.headingStrings hh,
    fun l hl => hb.lineFunctions hl, fun l hl => hb.locationMapping hl, fun s hs => h.sampleLocations hs⟩
  rw [List.head?_eq_getElem?]
  exact hb.string hb.blank

end

/-- **A profile says what its writer was given**, as far as it records it. -/
theorem profile_decodes (request : ProfileRequest) : Decodes request request.build.1 request.build.2 := by
  obtain ⟨hw, hheading, hresolve, htime, hduration⟩ := request.builder_spec
  have hb := hw.located.built
  refine ⟨hw.wellFormed hheading, htime, hduration, ?_, ?_, ?_, request.spelled_key _, fun honce l hl info =>
    honce.spelled_eq hl, ?_, ?_, ?_, hw.located.total, hw.located.symbolized⟩
  · exact hb.header hheading
  · exact mapM_of_forall₂ (hw.samples.imp fun _ _ hs => hw.decodeSample hs)
  · unfold ProfileRequest.spelled
    rw [← hresolve]
    exact fun l hl => hb.decodeLocation hl
  · rw [← hresolve]
    exact hb.functionKeys rfl
  · unfold ProfileRequest.spelled
    rw [← hresolve]
    exact hb.mappingInfos rfl
  · rw [← hresolve]
    exact fun m hm => hb.flagsFit rfl hm

/-- The path `/a//b`, which the second address spells `/a/./b`. -/
def respelledMapping (address : UInt64) : MappingInfo where
  start := 4096
  limit := 16384
  offset := 0
  relativeAddressAtStart := 0
  filename := ⟨if address = 4096 then [47, 97, 47, 47, 98] else [47, 97, 47, 46, 47, 98]⟩
  buildId := none

def respelled : ProfileRequest where
  symbolizer := some ⟨fun address => { address := address, mapping := some (respelledMapping address), lines := [] }⟩
  timeNanos := 0
  durationNanos := 1
  header := cpuHeader 1
  samples := .labelled [] [(Stack.ofAddresses [4096, 8192], [1, 1])]

-- both locations share the entry of the first
example : respelled.build.2.location.map (fun l => (l.address, respelled.build.2.decodeLocation l)) =
    [(4096, some (some ⟨4096, 16384, 0, "/a//b", ""⟩, [])), (8192, some (some ⟨4096, 16384, 0, "/a//b", ""⟩, []))] := by
  decide

/-- Two functions of one name: the file of one is not known, that of the other has an empty name. -/
def unnamedFiles : ProfileRequest where
  symbolizer := some ⟨fun address => { address := address, mapping := none, lines := [
    { function := "f", systemName := "f", filename := if address = 4096 then none else some "", line := 1 }] }⟩
  timeNanos := 0
  durationNanos := 1
  header := cpuHeader 1
  samples := .labelled [] [(Stack.ofAddresses [4096, 8192], [1, 1])]

/-- They get two entries that differ in their ids only, and their locations read the same. -/
theorem unnamedFiles_alike :
    ¬ (unnamedFiles.build.2.function.map fun f => (f.name, f.systemName, f.filename)).Nodup ∧
      (unnamedFiles.resolve 4096).lines ≠ (unnamedFiles.resolve 8192).lines ∧
      unnamedFiles.build.2.location.map (fun l => (l.address, unnamedFiles.build.2.decodeLocation l)) =
        [(4096, some (none, [⟨"f", "f", "", 1⟩])), (8192, some (none, [⟨"f", "f", "", 1⟩]))] := by
  decide

end RustProfile
