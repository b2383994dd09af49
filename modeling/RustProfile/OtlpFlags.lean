import RustProfile.OtlpDecode

/-!
# The flags of the mappings

A mapping of the dictionary has the flags of the profile that met it first, and
no later profile adds to them. They say what the locations show exactly when
that first mapping has every flag that a location met under the same key needs.
-/

namespace RustProfile

namespace Otlp

open Interning DictionaryBuilder

/-! ## What the locations show -/

/-- The flags of a mapping that the lines of one of its locations call for. -/
def lineFlags (lines : List RecordedLine) : List (String × Bool) :=
  [("pprof.mapping.has_functions", !lines.isEmpty),
    ("pprof.mapping.has_filenames", lines.any fun line => line.filename ≠ ""),
    ("pprof.mapping.has_line_numbers", lines.any fun line => line.line ≠ 0),
    ("pprof.mapping.has_inline_frames", decide (lines.length > 1))]

def ProfilesDictionary.HasFlag (d : ProfilesDictionary) (m : Mapping) (name : String) : Prop :=
  ∃ i ∈ m.attributeIndices, d.decodeAttribute i = some (name, .bool true, "")

/-- Every location in a mapping can be read, and its mapping has the flags that its lines call for. -/
structure FlagsConsistent (d : ProfilesDictionary) : Prop where
  location : ∀ l ∈ d.locationTable, l.mappingIndex ≠ 0 → ∃ m lines, d.mappingTable[l.mappingIndex]? = some m ∧
    l.lines.mapM d.decodeLine = some lines ∧ ∀ name, (name, true) ∈ lineFlags lines → d.HasFlag m name

/-- The mapping that was met first with the key of a location's has the flags that the location's lines call for. -/
def FirstFlagsCover (met : List Met) : Prop :=
  ∀ x ∈ met, ∀ m first lines, x.mapping = some m → firstMapping met (mappingKey x.1 m) = some first →
    x.2.line.mapM x.1.decodeLine = some lines → ∀ name, (name, true) ∈ lineFlags lines →
      (name, true) ∈ mappingFlags first

/-! ## What the dictionary says -/

theorem mem_locationsOf {source : RustProfile.Profile} (h : Readable source) {sample : RustProfile.Sample}
    {l : RustProfile.Location} (hl : l ∈ locationsOf source sample) : l ∈ source.location := by
  obtain ⟨id, -, hid⟩ := List.mem_filterMap.mp hl
  rw [h.lookup_location] at hid
  exact List.mem_of_find?_eq_some hid

theorem mem_metOf {source : RustProfile.Profile} (h : Readable source) {x : Met} (hx : x ∈ metOf source) :
    x.1 = source ∧ x.2 ∈ source.location := by
  obtain ⟨s, -, hs⟩ := List.mem_flatMap.mp hx
  obtain ⟨l, hl, rfl⟩ := List.mem_map.mp hs
  exact ⟨rfl, mem_locationsOf h hl⟩

theorem Readable.lines {source : RustProfile.Profile} (h : Readable source) {l : RustProfile.Location}
    (hl : l ∈ source.location) : ∃ lines, l.line.mapM source.decodeLine = some lines := by
  obtain ⟨r, hr⟩ := h.locations l hl
  unfold Profile.decodeLocation at hr
  simp only [Option.bind_eq_bind, Option.bind_eq_some_iff] at hr
  obtain ⟨-, -, lines, hlines, -⟩ := hr
  exact ⟨lines, hlines⟩

section
variable {d : DictionaryBuilder} {met : List Met} (h : Built d met)

include h

/-- The flags of an entry are those of the mapping that was met first with its key. -/
theorem Built.hasFlag_iff {key : MappingKey} {i : ℕ} {e : Mapping}
    (he : MappingFits d.stringIndex d.attributeIndex met key i e) (name : String) :
    d.finish.HasFlag e name ↔ ∃ first, firstMapping met key = some first ∧ (name, true) ∈ mappingFlags first := by
  obtain ⟨first, ids, flags, hfirst, hindices, hids, hflags⟩ := he.attributes
  unfold ProfilesDictionary.HasFlag
  rw [hindices, hfirst]
  constructor
  · rintro ⟨j, hj, hdecode⟩
    refine ⟨first, rfl, ?_⟩
    rcases List.mem_append.mp hj with hj | hj
    · -- a build id is a string, not a flag
      obtain ⟨key, -, value, ha⟩ := hids j hj
      rw [h.decodeAttribute ha] at hdecode
      cases hdecode
    · obtain ⟨flag, hflag, ha⟩ := exists_of_forall₂_right hflags hj
      rw [h.decodeAttribute ha] at hdecode
      have heq : flag = (name, true) := by
        simp only [Option.some.injEq, Prod.mk.injEq, AnyValue.bool.injEq] at hdecode
        exact Prod.ext hdecode.1 hdecode.2.1
      exact heq ▸ hflag
  · rintro ⟨first', hfirst', hmem⟩
    cases hfirst'
    obtain ⟨j, hj, ha⟩ := exists_of_forall₂_left hflags hmem
    exact ⟨j, List.mem_append_right _ hj, h.decodeAttribute ha⟩

theorem Built.decodeLines {x : Met} (hp : Readable x.1) {key : LocationKey} (hk : KeyFits d x key) {e : Location}
    (he : locationKey e.address e.mappingIndex e.lines = key) {lines : List RecordedLine}
    (hlines : x.2.line.mapM x.1.decodeLine = some lines) : e.lines.mapM d.finish.decodeLine = some lines := by
  have hforall := hk.lines
  rw [← he] at hforall
  refine mapM_of_forall₂ (forall₂_comp (forall₂_of_mapM hlines) (List.forall₂_map_right_iff.mp hforall) ?_)
  intro r l e hr hl
  exact h.decodeLine hp hl hr

variable (hmet : ∀ x ∈ met, Readable x.1 ∧ x.2 ∈ x.1.location)

include hmet

theorem Built.flagsConsistent (hcover : FirstFlagsCover met) : FlagsConsistent d.finish := by
  refine ⟨fun l hl hzero => ?_⟩
  rcases h.locations.of_mem hl with rfl | ⟨key, i, -, -, hfits⟩
  · exact absurd rfl hzero
  · obtain ⟨x, hx, hk⟩ := hfits.origin
    obtain ⟨hp, hmem⟩ := hmet x hx
    have hindex : key.2.1 = l.mappingIndex := by
      rw [← hfits.sameKey]
      rfl
    cases hm : x.mapping with
    | none => exact absurd (hindex.symm.trans (hk.unmapped hm)) hzero
    | some m =>
      have hlookup := hk.mapped m hm
      rw [hindex] at hlookup
      obtain ⟨-, e, he, hmapping⟩ := h.mappings.entry hlookup
      obtain ⟨lines, hlines⟩ := hp.lines hmem
      obtain ⟨first, -, -, hfirst, -⟩ := hmapping.attributes
      refine ⟨e, lines, he, h.decodeLines hp hk hfits.sameKey hlines, fun name hname => ?_⟩
      rw [h.hasFlag_iff hmapping]
      exact ⟨first, hfirst, hcover x hx m first lines hm hfirst hlines name hname⟩

omit h in
theorem Encoded.firstFlagsCover (h : Encoded d met) (hd : FlagsConsistent d.finish) : FirstFlagsCover met := by
  intro x hx m first lines hm hfirst hlines name hname
  obtain ⟨i, key, hkey, hk⟩ := h.complete x hx
  obtain ⟨-, l, hl, hfits⟩ := h.built.locations.entry hkey
  have hindex : l.mappingIndex = key.2.1 := by
    rw [← hfits.sameKey]
    rfl
  obtain ⟨hzero, e, he, hmapping⟩ := h.built.mappings.entry (hk.mapped m hm)
  obtain ⟨e', lines', he', hlines', hflags⟩ := hd.location l (List.mem_of_getElem? hl) (hindex ▸ hzero)
  rw [hindex] at he'
  change d.mappings[key.2.1]? = some e' at he'
  rw [he, Option.some.injEq] at he'
  rw [h.built.decodeLines (hmet x hx).1 hk hfits.sameKey hlines, Option.some.injEq] at hlines'
  subst he' hlines'
  obtain ⟨first', hfirst', hmem⟩ := (h.built.hasFlag_iff hmapping name).mp (hflags name hname)
  rw [hfirst, Option.some.injEq] at hfirst'
  exact hfirst' ▸ hmem

end

theorem Encodings.flagsConsistent_iff {e : Encoding} {done : List (RustProfile.Profile × Option (List ℕ))}
    (h : Encodings e done) (hp : ∀ input ∈ done, Readable input.1) :
    FlagsConsistent e.dictionary.finish ↔ FirstFlagsCover (done.flatMap fun input => metOf input.1) := by
  have hmet : ∀ x ∈ done.flatMap fun input => metOf input.1, Readable x.1 ∧ x.2 ∈ x.1.location := by
    intro x hx
    obtain ⟨input, hinput, hx⟩ := List.mem_flatMap.mp hx
    obtain ⟨hsource, hmem⟩ := mem_metOf (hp input hinput) hx
    rw [hsource]
    exact ⟨hp input hinput, hmem⟩
  exact ⟨h.encoded.firstFlagsCover hmet, h.encoded.built.flagsConsistent hmet⟩

/-! ## The request -/

/-- **A mapping has the flags of the profile that met it first.** They say what the locations show when the mappings
that were met first have them all, and only then. -/
theorem mappingFlags_consistent_iff (profileId : ℕ → Except String (List UInt8))
    (htlhash : ℕ → ℤ → UInt64 → UInt64 → Option String) (sources : List ProfileRequest)
    (timeline : Option (ProfileRequest × List ℕ)) (pid : ℤ) :
    Encodes (fun payload => FlagsConsistent payload.request.dictionary ↔
        FirstFlagsCover ((builtInputs sources timeline).flatMap fun input => metOf input.1))
      (NoProfileId profileId ∨ ∃ t ∈ timeline, t.2.length ≠ t.1.build.2.sample.length)
      (encodeProfiles profileId htlhash (sources.map fun source => source.build.2)
        (timeline.map fun t => (t.1.build.2, t.2)) pid) := by
  refine (encodeProfiles_spec profileId htlhash _ _ pid).imp ?_ (Or.imp_right ?_)
  · rintro payload ⟨e, he, hrequest⟩
    rw [hrequest]
    exact he.flagsConsistent_iff (builtInputs_readable sources timeline)
  · rintro ⟨built, hbuilt, hne⟩
    obtain ⟨t, ht, rfl⟩ := Option.map_eq_some_iff.mp (Option.mem_def.mp hbuilt)
    exact ⟨t, ht, hne⟩

/-- A module of which one function has a symbol. -/
def halfSymbolized : Symbolizer where
  resolve address :=
    { address := address
      mapping := some ⟨4096, 12288, 0, 0, ⟨[]⟩, none⟩
      lines := if address = 8192 then [⟨"f", "f", some "f.c", 3⟩] else [] }

def unsymbolizedCpu : ProfileRequest where
  symbolizer := some halfSymbolized
  timeNanos := 0
  durationNanos := 1
  header := cpuHeader 1
  samples := .attributed [] [(⟨Stack.ofAddresses [4096], 7, 7, none⟩, [1, 1])]

def symbolizedHeap : ProfileRequest where
  symbolizer := some halfSymbolized
  timeNanos := 0
  durationNanos := 1
  header := heapHeader 1
  samples := .labelled [] [(Stack.ofAddresses [8192], [1, 1, 1, 1])]

/-- The lines of the locations and the attributes of the mappings, as they read. -/
def ProfilesDictionary.locationLines (d : ProfilesDictionary) : List (ℕ × Option (List RecordedLine)) :=
  d.locationTable.map fun l => (l.mappingIndex, l.lines.mapM d.decodeLine)

def ProfilesDictionary.mappingAttributes (d : ProfilesDictionary) : List (List (Option Attribute)) :=
  d.mappingTable.map fun m => m.attributeIndices.map d.decodeAttribute

def flagsLost : Option ProfilesDictionary :=
  (encodeProfiles (fun _ => .ok []) (fun _ _ _ _ => none) [unsymbolizedCpu.build.2, symbolizedHeap.build.2] none
    1).toOption.map fun payload => payload.request.dictionary

/-- With the CPU profile first, the mapping has no functions although a location of the heap profile in it has one. -/
theorem flagsLost_inconsistent : ∃ d, flagsLost = some d ∧
    d.locationLines = [(0, some []), (1, some []), (1, some [⟨"f", "f", "f.c", 3⟩])] ∧
    d.mappingAttributes = [[], [some ("pprof.mapping.has_functions", .bool false, ""),
      some ("pprof.mapping.has_filenames", .bool false, ""), some ("pprof.mapping.has_line_numbers", .bool false, ""),
      some ("pprof.mapping.has_inline_frames", .bool false, "")]] ∧ ¬ FlagsConsistent d := by
  have hlines : flagsLost.map ProfilesDictionary.locationLines =
      some [(0, some []), (1, some []), (1, some [⟨"f", "f", "f.c", 3⟩])] := by decide +kernel
  have hattributes : flagsLost.map ProfilesDictionary.mappingAttributes =
      some [[], [some ("pprof.mapping.has_functions", .bool false, ""),
        some ("pprof.mapping.has_filenames", .bool false, ""),
        some ("pprof.mapping.has_line_numbers", .bool false, ""),
        some ("pprof.mapping.has_inline_frames", .bool false, "")]] := by decide +kernel
  obtain ⟨d, hd, hlines⟩ := Option.map_eq_some_iff.mp hlines
  rw [hd, Option.map_some, Option.some.injEq] at hattributes
  refine ⟨d, hd, hlines, hattributes, fun hconsistent => ?_⟩
  obtain ⟨l, hl, hread⟩ : ∃ l ∈ d.locationTable, (l.mappingIndex, l.lines.mapM d.decodeLine) =
      (1, some [⟨"f", "f", "f.c", 3⟩]) := by
    refine List.mem_map.mp ?_
    change _ ∈ d.locationLines
    simp [hlines]
  rw [Prod.mk.injEq] at hread
  obtain ⟨m, lines, hm, hdecode, hflags⟩ := hconsistent.location l hl (by simp [hread.1])
  rw [hread.2, Option.some.injEq] at hdecode
  obtain ⟨i, hi, hflag⟩ := hflags "pprof.mapping.has_functions" (by simp [← hdecode, lineFlags])
  have hat : d.mappingAttributes[l.mappingIndex]? = some (m.attributeIndices.map d.decodeAttribute) := by
    unfold ProfilesDictionary.mappingAttributes
    rw [List.getElem?_map, hm, Option.map_some]
  have hmem := List.mem_map_of_mem (f := d.decodeAttribute) hi
  rw [hattributes, hread.1, List.getElem?_cons_succ, List.getElem?_cons_zero, Option.some.injEq] at hat
  rw [hflag, ← hat] at hmem
  simp at hmem

end Otlp

end RustProfile
