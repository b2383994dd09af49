import RustProfile.OtlpEncode
import RustProfile.PprofDecode

/-!
# Reading a request

A request is read through its dictionary only. The stack of an exported sample
reads as the stack of the source's sample does.
-/

namespace RustProfile

open Interning

/-- An address with its mapping's range, offset and file, and its lines. -/
abbrev StackFrame := UInt64 × Option (UInt64 × UInt64 × UInt64 × String) × List RecordedLine

def RecordedMapping.range (self : RecordedMapping) : UInt64 × UInt64 × UInt64 × String :=
  (self.start, self.limit, self.offset, self.filename)

namespace Profile

variable (p : Profile)

def decodeFrame (l : Location) : Option StackFrame := do
  let location ← p.decodeLocation l
  some (l.address, location.1.map RecordedMapping.range, location.2)

def decodeStack (s : Sample) : Option (List StackFrame) :=
  s.locationId.mapM fun id => (p.locationById id).bind p.decodeFrame

end Profile

namespace Otlp

namespace ProfilesDictionary

variable (d : ProfilesDictionary)

def string (index : ℕ) : Option String := d.stringTable[index]?

def decodeAttribute (index : ℕ) : Option Attribute := do
  let entry ← d.attributeTable[index]?
  let key ← d.string entry.keyStrindex
  let value ← entry.value
  let unit ← d.string entry.unitStrindex
  some (key, value, unit)

def decodeLine (l : Line) : Option RecordedLine := do
  let f ← d.functionTable[l.functionIndex]?
  let function ← d.string f.nameStrindex
  let systemName ← d.string f.systemNameStrindex
  let filename ← d.string f.filenameStrindex
  some { function := function, systemName := systemName, filename := filename, line := l.line }

/-- The index 0 is no mapping. -/
def decodeMapping (index : ℕ) : Option (Option (UInt64 × UInt64 × UInt64 × String)) :=
  if index = 0 then some none else do
    let m ← d.mappingTable[index]?
    let filename ← d.string m.filenameStrindex
    some (some (m.memoryStart, m.memoryLimit, m.fileOffset, filename))

def decodeLocation (l : Location) : Option StackFrame := do
  let mapping ← d.decodeMapping l.mappingIndex
  let lines ← l.lines.mapM d.decodeLine
  some (l.address, mapping, lines)

def decodeStack (index : ℕ) : Option (List StackFrame) := do
  let stack ← d.stackTable[index]?
  stack.locationIndices.mapM fun i => (d.locationTable[i]?).bind d.decodeLocation

def decodeValueType (v : ValueType) : Option (String × String) := do
  let type ← d.string v.typeStrindex
  let unit ← d.string v.unitStrindex
  some (type, unit)

end ProfilesDictionary

/-! ## The sources -/

theorem lookup_foldl_insert {ε : Type} {id : ε → ℕ} : ∀ {entries : List ε}, (entries.map id).Nodup →
    ∀ (t : Table ℕ ε) (x : ℕ), (entries.foldl (fun map entry => map.insert (id entry) entry) t).lookup x =
      (byId id entries x).or (t.lookup x)
  | [], _, t, x => rfl
  | e :: entries, h, t, x => by
    rw [List.map_cons, List.nodup_cons] at h
    rw [List.foldl_cons, lookup_foldl_insert h.2, Table.lookup_insert]
    unfold byId
    by_cases hx : id e = x
    · have hnone : entries.find? (fun e => decide (id e = x)) = none := by
        refine List.find?_eq_none.mpr fun e' he' => ?_
        rw [decide_eq_true_eq]
        intro he
        exact h.1 (List.mem_map.mpr ⟨e', he', he.trans hx.symm⟩)
      rw [hnone, if_pos hx.symm, List.find?_cons_of_pos (by simpa using hx)]
      rfl
    · rw [if_neg (Ne.symm hx), List.find?_cons_of_neg (by simpa using hx)]

theorem lookup_collect {ε : Type} {id : ε → ℕ} {entries : List ε} (h : (entries.map id).Nodup) (x : ℕ) :
    (collect id entries).lookup x = byId id entries x := by
  unfold collect
  rw [lookup_foldl_insert h, AList.lookup_empty, Option.or_none]

structure Readable (p : RustProfile.Profile) : Prop where
  wellFormed : WellFormed p
  locations : ∀ l ∈ p.location, ∃ r, p.decodeLocation l = some r
  sampleTypes : ∀ kind ∈ p.sampleType, ∃ r, p.decodeValueType kind = some r

theorem readable (request : ProfileRequest) : Readable request.build.2 := by
  have h := profile_decodes request
  obtain ⟨hw, hheading, -, -, -⟩ := request.builder_spec
  refine ⟨h.wellFormed, fun l hl => ⟨_, h.locations l hl⟩, fun kind hkind => ?_⟩
  obtain ⟨given, -, hfits⟩ := exists_of_forall₂_right hheading.sampleType hkind
  exact ⟨given, hw.located.built.valueType hfits⟩

theorem nodup_of_range {ids : List ℕ} {n : ℕ} (h : ids = List.range' 1 n) : ids.Nodup := h ▸ List.nodup_range'

section
variable {p : RustProfile.Profile} (h : Readable p)

include h

theorem Readable.lookup_location (id : ℕ) : (SourceLookup.new p).locations.lookup id = p.locationById id :=
  lookup_collect (nodup_of_range h.wellFormed.locationIds) id

theorem Readable.lookup_mapping (id : ℕ) : (SourceLookup.new p).mappings.lookup id = p.mappingById id :=
  lookup_collect (nodup_of_range h.wellFormed.mappingIds) id

theorem Readable.lookup_function (id : ℕ) : (SourceLookup.new p).functions.lookup id = p.functionById id :=
  lookup_collect (nodup_of_range h.wellFormed.functionIds) id

end

theorem pprofString_eq {p : RustProfile.Profile} {index : ℕ} {s : String} (h : p.string index = some s) :
    pprofString p index = s := by
  unfold pprofString
  unfold Profile.string at h
  rw [h]
  rfl

theorem id_of_range {ε : Type} {id : ε → ℕ} {entries : List ε} (h : entries.map id = List.range' 1 entries.length)
    {j : ℕ} {e : ε} (he : entries[j]? = some e) : id e = 1 + j := by
  have hj := (List.getElem?_eq_some_iff.mp he).1
  have hget : (entries.map id)[j]? = some (id e) := by rw [List.getElem?_map, he, Option.map_some]
  rw [h, List.getElem?_range' hj, Nat.one_mul, Option.some.injEq] at hget
  exact hget.symm

theorem byId_of_range {ε : Type} {id : ε → ℕ} {entries : List ε}
    (h : entries.map id = List.range' 1 entries.length) {x : ℕ} (hx : 1 ≤ x ∧ x ≤ entries.length) :
      ∃ e ∈ entries, byId id entries x = some e := by
  have hlt : x - 1 < entries.length := by omega
  have he := List.getElem?_eq_getElem hlt
  have hfind := byId_eq id (fun _ _ => id_of_range h) he
  rw [show 1 + (x - 1) = x by omega] at hfind
  exact ⟨_, List.getElem_mem hlt, hfind⟩

/-! ## What the dictionary says -/

open DictionaryBuilder

section
variable {d : DictionaryBuilder} {met : List Met} (h : Built d met)

include h

theorem Built.string {value : String} {i : ℕ} (hl : d.stringIndex.lookup value = some i) :
    d.finish.string i = some value := by
  obtain ⟨j, e, rfl, he, rfl⟩ := h.strings.entry value i hl
  rw [Nat.zero_add]
  exact he

theorem Built.decodeAttribute {a : Attribute} {i : ℕ} (ha : AttributeAt d.attributeIndex a i) :
    d.finish.decodeAttribute i = some a := by
  obtain ⟨cacheKey, hr, hl⟩ := ha
  obtain ⟨-, e, he, hfits⟩ := h.attributes.entry hl
  obtain ⟨value, unit, hvalue, hunit, hr'⟩ := hfits.value
  obtain ⟨hv, hu⟩ := hr.injective hr'
  unfold ProfilesDictionary.decodeAttribute
  change (d.attributes[i]?).bind _ = _
  rw [he]
  change (d.finish.string e.keyStrindex).bind _ = _
  rw [h.string hfits.keyString]
  change e.value.bind _ = _
  rw [hvalue]
  change (d.finish.string e.unitStrindex).bind _ = _
  rw [h.string hunit, ← hv, ← hu]
  rfl

theorem Built.decodeValueType {source : RustProfile.Profile} {kind : RustProfile.ValueType} {v : ValueType}
    (hv : KindFits d.stringIndex source kind v) :
    d.finish.decodeValueType v = some (pprofString source kind.type, pprofString source kind.unit) := by
  unfold ProfilesDictionary.decodeValueType
  rw [h.string hv.type]
  change (d.finish.string v.unitStrindex).bind _ = _
  rw [h.string hv.unit]
  rfl

variable {p : RustProfile.Profile} (hp : Readable p)

include hp

theorem Built.decodeLine {l : RustProfile.Line} {e : Line}
    (hl : LineFits d.functionIndex p l (e.functionIndex, e.line, e.column)) {r : RecordedLine}
    (hr : p.decodeLine l = some r) : d.finish.decodeLine e = some r := by
  unfold Profile.decodeLine at hr
  simp only [Option.bind_eq_bind, Option.bind_eq_some_iff] at hr
  obtain ⟨f, hf, name, hname, systemName, hsystem, filename, hfile, he⟩ := hr
  rw [← hp.lookup_function] at hf
  obtain ⟨-, entry, hentry, hfits⟩ := h.functions.entry (hl.known f hf)
  have hfn : functionKey p f = (name, systemName, filename, f.startLine) := by
    unfold functionKey
    rw [pprofString_eq hname, pprofString_eq hsystem, pprofString_eq hfile]
  rw [hfn] at hfits
  unfold ProfilesDictionary.decodeLine
  change (d.functions[e.functionIndex]?).bind _ = _
  rw [hentry]
  change (d.finish.string entry.nameStrindex).bind _ = _
  rw [h.string hfits.name]
  change (d.finish.string entry.systemNameStrindex).bind _ = _
  rw [h.string hfits.systemName]
  change (d.finish.string entry.filenameStrindex).bind _ = _
  rw [h.string hfits.filename, ← he, ← hl.line]
  rfl

theorem Built.decodeMapping {l : RustProfile.Location} {key : LocationKey} (hk : KeyFits d (p, l) key)
    {r : Option RecordedMapping} (hr : p.decodeMappingId l.mappingId = some r) :
    d.finish.decodeMapping key.2.1 = some (r.map RecordedMapping.range) := by
  have hmapping : Met.mapping (p, l) = p.mappingById l.mappingId := hp.lookup_mapping l.mappingId
  unfold Profile.decodeMappingId at hr
  unfold ProfilesDictionary.decodeMapping
  by_cases hzero : l.mappingId = 0
  · rw [if_pos hzero, Option.some.injEq] at hr
    have hnone : Met.mapping (p, l) = none := by
      rw [hmapping, hzero]
      exact byId_zero _ fun _ _ => id_of_range hp.wellFormed.mappingIds
    rw [if_pos (hk.unmapped hnone), ← hr]
    rfl
  · rw [if_neg hzero] at hr
    simp only [Option.bind_eq_bind, Option.bind_eq_some_iff, Option.some.injEq] at hr
    obtain ⟨m, hm, recorded, hrecorded, rfl⟩ := hr
    unfold Profile.decodeMapping at hrecorded
    simp only [Option.bind_eq_bind, Option.bind_eq_some_iff, Option.some.injEq] at hrecorded
    obtain ⟨filename, hfile, buildId, -, rfl⟩ := hrecorded
    obtain ⟨hne, entry, hentry, hfits⟩ := h.mappings.entry (hk.mapped m (hmapping.trans hm))
    have hname : d.finish.string entry.filenameStrindex = some filename := by
      rw [← pprofString_eq hfile]
      exact h.string hfits.filename
    rw [if_neg hne]
    change (d.mappings[key.2.1]?).bind _ = _
    rw [hentry]
    change (d.finish.string entry.filenameStrindex).bind _ = _
    rw [hname, hfits.start, hfits.limit, hfits.offset]
    rfl

theorem Built.decodeLocation {l : RustProfile.Location} (hl : l ∈ p.location) {i : ℕ} (hi : LocationAt d (p, l) i) :
    ∃ frame, p.decodeFrame l = some frame ∧ (d.finish.locationTable[i]?).bind d.finish.decodeLocation = some frame := by
  obtain ⟨r, hr⟩ := hp.locations l hl
  have hframe : p.decodeFrame l = some (l.address, r.1.map RecordedMapping.range, r.2) := by
    unfold Profile.decodeFrame
    rw [hr]
    rfl
  refine ⟨_, hframe, ?_⟩
  unfold Profile.decodeLocation at hr
  simp only [Option.bind_eq_bind, Option.bind_eq_some_iff, Option.some.injEq] at hr
  obtain ⟨mapping, hmapping, lines, hlines, rfl⟩ := hr
  obtain ⟨key, hkey, hk⟩ := hi
  obtain ⟨-, e, he, hfits⟩ := h.locations.entry hkey
  have haddress : e.address = l.address := by rw [← hk.atAddress, ← hfits.sameKey]; rfl
  have hmap : d.finish.decodeMapping e.mappingIndex = some (mapping.map RecordedMapping.range) := by
    have := h.decodeMapping hp hk hmapping
    rwa [← hfits.sameKey] at this
  have hls : e.lines.mapM d.finish.decodeLine = some lines := by
    have hforall := hk.lines
    rw [← hfits.sameKey] at hforall
    have hlines' := forall₂_of_mapM hlines
    refine mapM_of_forall₂ (forall₂_comp hlines' (List.forall₂_map_right_iff.mp hforall) ?_)
    intro r l e hr hl
    exact h.decodeLine hp hl hr
  change (d.locations[i]?).bind _ = _
  rw [he]
  change (d.finish.decodeMapping e.mappingIndex).bind _ = _
  rw [hmap]
  change (e.lines.mapM d.finish.decodeLine).bind _ = _
  rw [hls, haddress]
  rfl

theorem Built.decodeStack {s : RustProfile.Sample} (hs : s ∈ p.sample) {i : ℕ} (hi : StackAt d p (locationsOf p s) i) :
    ∃ frames, p.decodeStack s = some frames ∧ d.finish.decodeStack i = some frames := by
  obtain ⟨key, hkey, hlocations⟩ := hi
  obtain ⟨-, e, he, hfits⟩ := h.stackEntries.entry hkey
  have hfound : ∀ id ∈ s.locationId, ∃ l ∈ p.location, p.locationById id = some l := fun id hid =>
    byId_of_range hp.wellFormed.locationIds (hp.wellFormed.sampleLocations s hs id hid)
  have hids : List.Forall₂ (fun l id => l ∈ p.location ∧ p.locationById id = some l) (locationsOf p s)
      s.locationId := by
    unfold locationsOf
    rw [funext hp.lookup_location]
    exact forall₂_filterMap hfound
  have hframes : List.Forall₂ (fun id j => ∃ frame, (p.locationById id).bind p.decodeFrame = some frame ∧
      (d.finish.locationTable[j]?).bind d.finish.decodeLocation = some frame) s.locationId key := by
    refine forall₂_comp hids.flip hlocations ?_
    rintro id l j ⟨hmem, hbyId⟩ hj
    rw [hbyId]
    exact h.decodeLocation hp hmem hj
  obtain ⟨frames, hleft, hright⟩ := exists_of_forall₂ hframes
  refine ⟨frames, mapM_of_forall₂ hleft, ?_⟩
  unfold ProfilesDictionary.decodeStack
  change (d.stackEntries[i]?).bind _ = _
  rw [he]
  change e.locationIndices.mapM _ = _
  rw [hfits.sameKey]
  exact mapM_of_forall₂ hright

end

/-! ## The request -/

structure InRange (r : ExportProfilesServiceRequest) : Prop where
  attributes : ∀ a ∈ r.dictionary.attributeTable, ∀ i ∈ [a.keyStrindex, a.unitStrindex],
    i < r.dictionary.stringTable.length
  functions : ∀ f ∈ r.dictionary.functionTable, ∀ i ∈ [f.nameStrindex, f.systemNameStrindex, f.filenameStrindex],
    i < r.dictionary.stringTable.length
  mappingFiles : ∀ m ∈ r.dictionary.mappingTable, m.filenameStrindex < r.dictionary.stringTable.length
  mappingAttributes : ∀ m ∈ r.dictionary.mappingTable, ∀ i ∈ m.attributeIndices,
    i < r.dictionary.attributeTable.length
  locationMappings : ∀ l ∈ r.dictionary.locationTable, l.mappingIndex < r.dictionary.mappingTable.length
  locationLines : ∀ l ∈ r.dictionary.locationTable, ∀ line ∈ l.lines,
    line.functionIndex < r.dictionary.functionTable.length
  locationAttributes : ∀ l ∈ r.dictionary.locationTable, ∀ i ∈ l.attributeIndices,
    i < r.dictionary.attributeTable.length
  stackLocations : ∀ s ∈ r.dictionary.stackTable, ∀ i ∈ s.locationIndices, i < r.dictionary.locationTable.length
  kinds : ∀ scope ∈ r.scopeProfiles, ∀ p ∈ scope.profiles, ∀ v ∈ p.sampleType.toList ++ p.periodType.toList,
    ∀ i ∈ [v.typeStrindex, v.unitStrindex], i < r.dictionary.stringTable.length
  sampleStacks : ∀ scope ∈ r.scopeProfiles, ∀ p ∈ scope.profiles, ∀ s ∈ p.samples,
    s.stackIndex < r.dictionary.stackTable.length
  sampleAttributes : ∀ scope ∈ r.scopeProfiles, ∀ p ∈ scope.profiles, ∀ s ∈ p.samples, ∀ i ∈ s.attributeIndices,
    i < r.dictionary.attributeTable.length
  sampleLinks : ∀ scope ∈ r.scopeProfiles, ∀ p ∈ scope.profiles, ∀ s ∈ p.samples,
    s.linkIndex < r.dictionary.linkTable.length

/-- The first entry of each table is the default, and that of the links the all-zero ids. -/
structure Defaults (d : ProfilesDictionary) : Prop where
  mappings : d.mappingTable.head? = some {}
  locations : d.locationTable.head? = some {}
  functions : d.functionTable.head? = some {}
  strings : d.stringTable.head? = some ""
  attributes : d.attributeTable.head? = some {}
  stackEntries : d.stackTable.head? = some {}
  links : d.linkTable.head? = some { traceId := List.replicate 16 0, spanId := List.replicate 8 0 }

section
variable {d : DictionaryBuilder} {met : List Met} (h : Built d met)

include h

theorem Built.defaults : Defaults d.finish := by
  refine ⟨h.mappings.head, h.locations.head, h.functions.head, ?_, h.attributes.head, h.stackEntries.head, rfl⟩
  rw [List.head?_eq_getElem?]
  exact h.string h.blank

theorem Built.string_lt {value : String} {i : ℕ} (hl : d.stringIndex.lookup value = some i) : i < d.strings.length := by
  have := (h.strings.lt hl).2
  omega

theorem Built.strings_pos : 0 < d.strings.length := h.string_lt h.blank

theorem Built.attribute_lt {a : Attribute} {i : ℕ} (ha : AttributeAt d.attributeIndex a i) :
    i < d.attributes.length := by
  obtain ⟨cacheKey, -, hl⟩ := ha
  exact h.attributes.lt hl

theorem Built.attributeStrings : ∀ a ∈ d.attributes, ∀ i ∈ [a.keyStrindex, a.unitStrindex], i < d.strings.length := by
  intro a ha
  rw [List.forall_mem_cons, List.forall_mem_singleton]
  rcases h.attributes.of_mem ha with rfl | ⟨key, i, -, -, hfits⟩
  · exact ⟨h.strings_pos, h.strings_pos⟩
  · obtain ⟨value, unit, -, hunit, -⟩ := hfits.value
    exact ⟨h.string_lt hfits.keyString, h.string_lt hunit⟩

theorem Built.functionStrings : ∀ f ∈ d.functions, ∀ i ∈ [f.nameStrindex, f.systemNameStrindex, f.filenameStrindex],
    i < d.strings.length := by
  intro f hf
  rw [List.forall_mem_cons, List.forall_mem_cons, List.forall_mem_singleton]
  rcases h.functions.of_mem hf with rfl | ⟨key, i, -, -, hfits⟩
  · exact ⟨h.strings_pos, h.strings_pos, h.strings_pos⟩
  · exact ⟨h.string_lt hfits.name, h.string_lt hfits.systemName, h.string_lt hfits.filename⟩

theorem Built.mappingFile : ∀ m ∈ d.mappings, m.filenameStrindex < d.strings.length := by
  intro m hm
  rcases h.mappings.of_mem hm with rfl | ⟨key, i, -, -, hfits⟩
  · exact h.strings_pos
  · exact h.string_lt hfits.filename

theorem Built.mappingAttributes : ∀ m ∈ d.mappings, ∀ i ∈ m.attributeIndices, i < d.attributes.length := by
  intro m hm i hi
  rcases h.mappings.of_mem hm with rfl | ⟨key, j, -, -, hfits⟩
  · cases hi
  · obtain ⟨first, ids, flags, -, he, hids, hflags⟩ := hfits.attributes
    rw [he] at hi
    rcases List.mem_append.mp hi with hi | hi
    · obtain ⟨name, -, value, ha⟩ := hids i hi
      exact h.attribute_lt ha
    · obtain ⟨flag, -, ha⟩ := exists_of_forall₂_right hflags hi
      exact h.attribute_lt ha

theorem Built.mappingIndex_lt {x : Met} {key : LocationKey} (hk : KeyFits d x key) : key.2.1 < d.mappings.length := by
  cases hm : x.mapping with
  | none =>
    rw [hk.unmapped hm]
    exact h.mappings.length_pos
  | some m => exact h.mappings.lt (hk.mapped m hm)

theorem Built.functionIndex_lt {x : Met} {key : LocationKey} (hk : KeyFits d x key) :
    ∀ e ∈ key.2.2, e.1 < d.functions.length := by
  intro e he
  obtain ⟨l, -, hl⟩ := exists_of_forall₂_right hk.lines he
  cases hf : (SourceLookup.new x.1).functions.lookup l.functionId with
  | none =>
    rw [hl.unknown hf]
    exact h.functions.length_pos
  | some f => exact h.functions.lt (hl.known f hf)

theorem Built.locationMapping : ∀ l ∈ d.locations, l.mappingIndex < d.mappings.length := by
  intro l hl
  rcases h.locations.of_mem hl with rfl | ⟨key, i, -, -, hfits⟩
  · exact h.mappings.length_pos
  · obtain ⟨x, -, hk⟩ := hfits.origin
    have hlt := h.mappingIndex_lt hk
    rw [← hfits.sameKey] at hlt
    exact hlt

theorem Built.locationLines : ∀ l ∈ d.locations, ∀ line ∈ l.lines, line.functionIndex < d.functions.length := by
  intro l hl line hline
  rcases h.locations.of_mem hl with rfl | ⟨key, i, -, -, hfits⟩
  · cases hline
  · obtain ⟨x, -, hk⟩ := hfits.origin
    have hlt := h.functionIndex_lt hk
    rw [← hfits.sameKey] at hlt
    exact hlt _ (List.mem_map.mpr ⟨line, hline, rfl⟩)

theorem Built.locationAttributes : ∀ l ∈ d.locations, ∀ i ∈ l.attributeIndices, i < d.attributes.length := by
  intro l hl i hi
  rcases h.locations.of_mem hl with rfl | ⟨key, j, -, -, hfits⟩
  · cases hi
  · obtain ⟨a, ha⟩ := hfits.attributes i hi
    exact h.attribute_lt ha

theorem Built.stackLocations : ∀ s ∈ d.stackEntries, ∀ i ∈ s.locationIndices, i < d.locations.length := by
  intro s hs i hi
  rcases h.stackEntries.of_mem hs with rfl | ⟨key, j, -, -, hfits⟩
  · cases hi
  · rw [hfits.sameKey] at hi
    obtain ⟨k, hk⟩ := hfits.locations i hi
    exact h.locations.lt hk

theorem Built.stack_lt {source : RustProfile.Profile} {locations : List RustProfile.Location} {i : ℕ}
    (hs : StackAt d source locations i) : i < d.stackEntries.length := by
  obtain ⟨key, hl, -⟩ := hs
  exact h.stackEntries.lt hl

theorem Built.kind_lt {source : RustProfile.Profile} {kind : RustProfile.ValueType} {v : ValueType}
    (hv : KindFits d.stringIndex source kind v) : ∀ i ∈ [v.typeStrindex, v.unitStrindex], i < d.strings.length := by
  rw [List.forall_mem_cons, List.forall_mem_singleton]
  exact ⟨h.string_lt hv.type, h.string_lt hv.unit⟩

theorem Built.profileKinds {source : RustProfile.Profile} {timestamps : Option (List ℕ)} {sampleIndex : ℕ} {p : Profile}
    (hp : ProfileFits d source timestamps sampleIndex p) : ∀ v ∈ p.sampleType.toList ++ p.periodType.toList,
    ∀ i ∈ [v.typeStrindex, v.unitStrindex], i < d.strings.length := by
  intro v hv
  rcases List.mem_append.mp hv with hv | hv
  · obtain ⟨kind, v', -, hv', hfits⟩ := hp.sampleType
    rw [hv', Option.toList_some, List.mem_singleton] at hv
    rw [hv]
    exact h.kind_lt hfits
  · obtain ⟨kind, -, hfits⟩ := exists_of_forall₂_right hp.periodType hv
    exact h.kind_lt hfits

end

theorem ProfileFits.sample {d : DictionaryBuilder} {source : RustProfile.Profile} {timestamps : Option (List ℕ)}
    {sampleIndex : ℕ} {p : Profile} (hp : ProfileFits d source timestamps sampleIndex p) {o : Sample}
      (ho : o ∈ p.samples) :
    ∃ s ∈ source.sample, StackAt d source (locationsOf source s) o.stackIndex ∧
      List.Forall₂ (AttributeAt d.attributeIndex) (attributesOf source s) o.attributeIndices ∧ o.linkIndex = 0 := by
  cases timestamps with
  | none =>
    obtain ⟨s, hs, hfits⟩ := exists_of_forall₂_right (hp.plain rfl) ho
    exact ⟨s, hs, hfits.stack, hfits.attributes, hfits.link⟩
  | some stamps =>
    obtain ⟨rows, hrows, hsamples⟩ := hp.timed stamps rfl
    rw [hsamples] at ho
    obtain ⟨g, hg, rfl⟩ := List.mem_map.mp ho
    have hkey : g.1 ∈ rows.map Prod.fst := ((Grouping.group_spec rows).keys g.1).mp (List.mem_map_of_mem hg)
    obtain ⟨row, hrow, hk⟩ := List.mem_map.mp hkey
    obtain ⟨s, hs, hfits⟩ := exists_of_forall₂_right hrows hrow
    refine ⟨s.1, (List.of_mem_zip hs).1, ?_⟩
    unfold groupSample
    dsimp only
    rw [← hk]
    exact ⟨hfits.stack, hfits.attributes, hfits.link⟩

theorem Encodings.inRange {e : Encoding} {done : List (RustProfile.Profile × Option (List ℕ))} (h : Encodings e done) :
    InRange { scopeProfiles := e.scopeProfiles, dictionary := e.dictionary.finish } := by
  have hb := h.encoded.built
  have hprofile : ∀ scope ∈ e.scopeProfiles, ∀ p ∈ scope.profiles, ∃ source timestamps k,
      ProfileFits e.dictionary source timestamps k p := by
    intro scope hscope p hp
    obtain ⟨input, -, hfits⟩ := exists_of_forall₂_right h.scopes hscope
    obtain ⟨k, -, hk⟩ := exists_of_forall₂_right hfits.profiles hp
    exact ⟨_, _, k, hk⟩
  refine ⟨hb.attributeStrings, hb.functionStrings, hb.mappingFile, hb.mappingAttributes, hb.locationMapping,
    hb.locationLines, hb.locationAttributes, hb.stackLocations, ?_, ?_, ?_, ?_⟩
  · intro scope hscope p hp
    obtain ⟨source, timestamps, k, hfits⟩ := hprofile scope hscope p hp
    exact hb.profileKinds hfits
  · intro scope hscope p hp o ho
    obtain ⟨source, timestamps, k, hfits⟩ := hprofile scope hscope p hp
    obtain ⟨s, -, hs, -⟩ := hfits.sample ho
    exact hb.stack_lt hs
  · intro scope hscope p hp o ho i hi
    obtain ⟨source, timestamps, k, hfits⟩ := hprofile scope hscope p hp
    obtain ⟨s, -, -, ha, -⟩ := hfits.sample ho
    obtain ⟨a, -, hat⟩ := exists_of_forall₂_right ha hi
    exact hb.attribute_lt hat
  · intro scope hscope p hp o ho
    obtain ⟨source, timestamps, k, hfits⟩ := hprofile scope hscope p hp
    obtain ⟨s, -, -, -, hlink⟩ := hfits.sample ho
    rw [hlink]
    exact Nat.zero_lt_one

structure SameSample (d : ProfilesDictionary) (source : RustProfile.Profile) (sampleIndex : ℕ) (s : RustProfile.Sample)
    (o : Sample) : Prop where
  stack : ∃ frames, source.decodeStack s = some frames ∧ d.decodeStack o.stackIndex = some frames
  values : o.values = [s.value[sampleIndex]?.getD 0]

structure SameProfile (d : ProfilesDictionary) (input : RustProfile.Profile × Option (List ℕ)) (sampleIndex : ℕ)
    (p : Profile) : Prop where
  sampleType : ∃ kind v names, input.1.sampleType[sampleIndex]? = some kind ∧ p.sampleType = some v ∧
    input.1.decodeValueType kind = some names ∧ d.decodeValueType v = some names
  samples : input.2 = none → List.Forall₂ (SameSample d input.1 sampleIndex) input.1.sample p.samples

/-- What a request keeps of the profiles it was encoded from. -/
structure Preserves (inputs : List (RustProfile.Profile × Option (List ℕ))) (r : ExportProfilesServiceRequest) :
    Prop where
  inRange : InRange r
  defaults : Defaults r.dictionary
  scopes : List.Forall₂ (fun input scope =>
    List.Forall₂ (SameProfile r.dictionary input) (List.range input.1.sampleType.length) scope.profiles) inputs
      r.scopeProfiles

section
variable {d : DictionaryBuilder} {met : List Met} (h : Built d met)

include h

theorem Built.sameProfile {input : RustProfile.Profile × Option (List ℕ)} (hp : Readable input.1) {sampleIndex : ℕ}
    {p : Profile} (hfits : ProfileFits d input.1 input.2 sampleIndex p) : SameProfile d.finish input sampleIndex p := by
  refine ⟨?_, fun hn => forall₂_of_mem (hfits.plain hn) fun s o hs ho => ?_⟩
  · obtain ⟨kind, v, hkind, hv, hnames⟩ := hfits.sampleType
    obtain ⟨names, hdecode⟩ := hp.sampleTypes kind (List.mem_of_getElem? hkind)
    refine ⟨kind, v, names, hkind, hv, hdecode, ?_⟩
    unfold Profile.decodeValueType at hdecode
    simp only [Option.bind_eq_bind, Option.bind_eq_some_iff, Option.some.injEq] at hdecode
    obtain ⟨type, htype, unit, hunit, rfl⟩ := hdecode
    rw [h.decodeValueType hnames, pprofString_eq htype, pprofString_eq hunit]
  · exact ⟨h.decodeStack hp hs ho.stack, ho.values⟩

end

theorem Encodings.preserves {e : Encoding} {done : List (RustProfile.Profile × Option (List ℕ))} (h : Encodings e done)
    (hp : ∀ input ∈ done, Readable input.1) :
    Preserves done { scopeProfiles := e.scopeProfiles, dictionary := e.dictionary.finish } := by
  have hb := h.encoded.built
  refine ⟨h.inRange, hb.defaults, forall₂_of_mem h.scopes fun input scope hinput hscope => ?_⟩
  exact hscope.profiles.imp fun _ _ hfits => hb.sameProfile (hp input hinput) hfits

theorem encoded_new (pid : ℤ) (htlhash : ℕ → ℤ → UInt64 → UInt64 → Option String) :
    Encoded { processPid := pid, htlhash := htlhash } [] := by
  have hstrings := (interned_empty : Interned (∅ : Table String ℕ) ([] : List String) 0 fun k _ e => e = k).push
    (k := "") (e := "") rfl rfl
  exact ⟨⟨hstrings, rfl, reserved_empty, reserved_empty, reserved_empty, reserved_empty, reserved_empty, nofun⟩, nofun⟩

/-- An encoding of profiles has what encoding its inputs gave, or failed where one of these did. -/
theorem encodeProfiles_spec (profileId : ℕ → Except String (List UInt8))
    (htlhash : ℕ → ℤ → UInt64 → UInt64 → Option String) (sources : List RustProfile.Profile)
    (timeline : Option (RustProfile.Profile × List ℕ)) (pid : ℤ) :
    Encodes (fun payload => ∃ e, Encodings e (inputs sources timeline) ∧
        payload.request = { scopeProfiles := e.scopeProfiles, dictionary := e.dictionary.finish })
      (NoProfileId profileId ∨ ∃ t ∈ timeline, t.2.length ≠ t.1.sample.length)
      (encodeProfiles profileId htlhash sources timeline pid) := by
  have hstart : Encodings { dictionary := { processPid := pid, htlhash := htlhash } } [] :=
    ⟨encoded_new pid htlhash, List.Forall₂.nil⟩
  have hall := encodeInputs_spec profileId (inputs sources timeline) hstart
  unfold encodeProfiles
  cases hr : encodeInputs profileId { dictionary := { processPid := pid, htlhash := htlhash } }
    (inputs sources timeline) with
  | ok e =>
    rw [hr] at hall
    cases hall with
    | ok hgood => exact .ok ⟨e, hgood, rfl⟩
  | error e =>
    rw [hr] at hall
    cases hall with
    | error hfailed =>
      refine .error (hfailed.imp_right ?_)
      rintro ⟨input, hinput, hstamped⟩
      -- Only the timeline comes with timestamps, so only its count can be wrong.
      rcases List.mem_append.mp hinput with hinput | hinput
      · obtain ⟨source, -, rfl⟩ := List.mem_map.mp hinput
        exact (hstamped nofun).elim
      · obtain ⟨t, ht, rfl⟩ := List.mem_map.mp hinput
        refine ⟨t, Option.mem_toList.mp ht, fun heq => hstamped ?_⟩
        intro stamps hs
        cases hs
        exact heq

def builtInputs (sources : List ProfileRequest) (timeline : Option (ProfileRequest × List ℕ)) :
    List (RustProfile.Profile × Option (List ℕ)) :=
  inputs (sources.map fun source => source.build.2) (timeline.map fun t => (t.1.build.2, t.2))

theorem builtInputs_readable (sources : List ProfileRequest) (timeline : Option (ProfileRequest × List ℕ)) :
    ∀ input ∈ builtInputs sources timeline, Readable input.1 := by
  intro input hinput
  rcases List.mem_append.mp hinput with hinput | hinput
  · obtain ⟨source, hsource, rfl⟩ := List.mem_map.mp hinput
    obtain ⟨request, -, rfl⟩ := List.mem_map.mp hsource
    exact readable request
  · obtain ⟨t, ht, rfl⟩ := List.mem_map.mp hinput
    obtain ⟨request, -, rfl⟩ := Option.map_eq_some_iff.mp (Option.mem_toList.mp ht)
    exact readable request.1

/-- **Encoding preserves meaning**, for the profiles that the builder builds. -/
theorem encodeProfiles_preserves (profileId : ℕ → Except String (List UInt8))
    (htlhash : ℕ → ℤ → UInt64 → UInt64 → Option String) (sources : List ProfileRequest)
    (timeline : Option (ProfileRequest × List ℕ)) (pid : ℤ) :
    let built := sources.map fun source => source.build.2
    let timed := timeline.map fun t => (t.1.build.2, t.2)
    Encodes (fun payload => Preserves (inputs built timed) payload.request)
      (NoProfileId profileId ∨ ∃ t ∈ timed, t.2.length ≠ t.1.sample.length)
      (encodeProfiles profileId htlhash built timed pid) := by
  intro built timed
  refine (encodeProfiles_spec profileId htlhash built timed pid).imp ?_ id
  rintro payload ⟨e, he, hrequest⟩
  rw [hrequest]
  exact he.preserves (builtInputs_readable sources timeline)

/-- The link that stands for none has ids of zeros, not empty ones. -/
theorem link_not_default :
    (encodeProfiles (fun _ => .ok []) (fun _ _ _ _ => none) [] none 1).toOption.map (fun payload =>
      payload.request.dictionary.linkTable) = some [⟨List.replicate 16 0, List.replicate 8 0⟩] ∧
      (⟨List.replicate 16 0, List.replicate 8 0⟩ : Link) ≠ {} := by
  decide

end Otlp

end RustProfile
