import RustProfile.Pprof

/-!
# Profiles decode back to their input

The builder's tables only grow, and every number it hands out keeps its meaning.
`Built` is what holds between its calls: each table is numbered by its index, its
entries are what their keys ask for, and the flags of a mapping are those of the
addresses resolved into it.
-/

namespace RustProfile

open Interning

namespace ProfileBuilder

/-- What the builder takes an address for; without a symbolizer it is only an address. -/
def resolve (self : ProfileBuilder) (address : UInt64) : ResolvedLocation :=
  match self.symbolizer with
  | some symbolizer => symbolizer.resolve address
  | none => { address := address, mapping := none, lines := [] }

end ProfileBuilder

/-! ## What the entries stand for -/

section
variable (strings : Table String ℕ)

structure FunctionFits (key : FunctionKey) (id : ℕ) (f : Function) : Prop where
  id : f.id = id
  name : strings.lookup key.1 = some f.name
  systemName : strings.lookup key.2.1 = some f.systemName
  filename : strings.lookup (key.2.2.getD "") = some f.filename
  startLine : f.startLine = 0

structure MappingFits (info : MappingInfo) (id : ℕ) (m : Mapping) : Prop where
  id : m.id = id
  start : m.memoryStart = info.start
  limit : m.memoryLimit = info.limit
  offset : m.fileOffset = info.offset
  filename : strings.lookup info.filename.toStringLossy = some m.filename
  buildId : strings.lookup (info.buildId.getD "") = some m.buildId

structure LabelFits (label : String × String × ℤ) (l : Label) : Prop where
  key : strings.lookup label.1 = some l.key
  str : strings.lookup label.2.1 = some l.str
  num : l.num = label.2.2
  numUnit : l.numUnit = 0

structure ValueTypeFits (kind : String × String) (v : ValueType) : Prop where
  type : strings.lookup kind.1 = some v.type
  unit : strings.lookup kind.2 = some v.unit

end

structure LineFits (functions : Table FunctionKey ℕ) (line : SymbolizedLine) (l : Line) : Prop where
  function : functions.lookup line.functionKey = some l.functionId
  line : l.line = line.line
  column : l.column = 0

structure LocationFits (b : ProfileBuilder) (address : UInt64) (id : ℕ) (l : Location) : Prop where
  id : l.id = id
  atAddress : l.address = address
  isFolded : l.isFolded = false
  unmapped : (b.resolve address).mapping = none → l.mappingId = 0
  mapped : ∀ info, (b.resolve address).mapping = some info → b.mappings.lookup info.key = some l.mappingId
  lines : List.Forall₂ (LineFits b.functions) (b.resolve address).lines l.line

structure FlagsFit (resolved : List ResolvedLocation) (m : Mapping) : Prop where
  hasFunctions : m.hasFunctions = resolved.any fun r => !r.lines.isEmpty
  hasFilenames : m.hasFilenames = resolved.any ProfileBuilder.hasFilenames
  hasLineNumbers : m.hasLineNumbers = resolved.any ProfileBuilder.hasLineNumbers
  hasInlineFrames : m.hasInlineFrames = resolved.any fun r => decide (r.lines.length > 1)

def resolvedInto (b : ProfileBuilder) (seen : List UInt64) (key : MappingInfo.Key) : List ResolvedLocation :=
  (seen.map b.resolve).filter fun r => r.mapping.map MappingInfo.key = some key

/-- The mapping that the key was met as first: later ones can spell its path in another way. -/
def firstSpelling (resolve : UInt64 → ResolvedLocation) (seen : List UInt64) (key : MappingInfo.Key) :
    Option MappingInfo :=
  (seen.filterMap fun address => (resolve address).mapping).find? (·.key = key)

/-- The entry of a key is that of its first spelling. -/
def MappingMet (strings : Table String ℕ) (resolve : UInt64 → ResolvedLocation) (seen : List UInt64)
    (key : MappingInfo.Key) (id : ℕ) (m : Mapping) : Prop :=
  ∃ info, firstSpelling resolve seen key = some info ∧ MappingFits strings info id m

structure Built (b : ProfileBuilder) (seen : List UInt64) : Prop where
  strings : Interned b.strings b.profile.stringTable 0 fun k _ e => e = k
  blank : b.strings.lookup "" = some 0
  functions : Interned b.functions b.profile.function 1 (FunctionFits b.strings)
  mappings : Interned b.mappings b.profile.mapping 1 (MappingMet b.strings b.resolve seen)
  locations : Interned b.locations b.profile.location 1 (LocationFits b)
  known : ∀ address ∈ seen, ∀ info, (b.resolve address).mapping = some info → info.key ∈ b.mappings
  used : ∀ key ∈ b.functions, ∃ address ∈ seen, ∃ line ∈ (b.resolve address).lines, line.functionKey = key
  flags : ∀ key id m, b.mappings.lookup key = some id → b.profile.mapping[id - 1]? = some m →
    FlagsFit (resolvedInto b seen key) m

/-! ## Growth -/

def Profile.outline (p : Profile) : Profile :=
  { p with stringTable := [], function := [], mapping := [], location := [] }

/-- Numbers keep their meaning, and only the tables have changed. -/
structure Grows (a b : ProfileBuilder) : Prop where
  strings : Extends a.strings b.strings
  functions : Extends a.functions b.functions
  mappings : Extends a.mappings b.mappings
  locations : Extends a.locations b.locations
  symbolizer : b.symbolizer = a.symbolizer
  outline : b.profile.outline = a.profile.outline

structure SameLocations (a b : ProfileBuilder) : Prop where
  location : b.profile.location = a.profile.location
  locations : b.locations = a.locations
  stats : b.stats = a.stats

theorem Grows.refl (a : ProfileBuilder) : Grows a a :=
  ⟨Extends.refl _, Extends.refl _, Extends.refl _, Extends.refl _, rfl, rfl⟩

theorem Grows.trans {a b c : ProfileBuilder} (hab : Grows a b) (hbc : Grows b c) : Grows a c :=
  ⟨hab.strings.trans hbc.strings, hab.functions.trans hbc.functions, hab.mappings.trans hbc.mappings,
    hab.locations.trans hbc.locations, hbc.symbolizer.trans hab.symbolizer, hbc.outline.trans hab.outline⟩

theorem SameLocations.refl (a : ProfileBuilder) : SameLocations a a := ⟨rfl, rfl, rfl⟩

theorem SameLocations.trans {a b c : ProfileBuilder} (hab : SameLocations a b) (hbc : SameLocations b c) :
    SameLocations a c :=
  ⟨hbc.location.trans hab.location, hbc.locations.trans hab.locations, hbc.stats.trans hab.stats⟩

theorem Grows.resolve {a b : ProfileBuilder} (h : Grows a b) : b.resolve = a.resolve := by
  funext address
  unfold ProfileBuilder.resolve
  rw [h.symbolizer]

section
variable {s t : Table String ℕ} (h : Extends s t)

include h

theorem FunctionFits.mono {key : FunctionKey} {id : ℕ} {f : Function} (hf : FunctionFits s key id f) :
    FunctionFits t key id f :=
  ⟨hf.id, h _ _ hf.name, h _ _ hf.systemName, h _ _ hf.filename, hf.startLine⟩

theorem MappingFits.mono {info : MappingInfo} {id : ℕ} {m : Mapping} (hm : MappingFits s info id m) :
    MappingFits t info id m :=
  ⟨hm.id, hm.start, hm.limit, hm.offset, h _ _ hm.filename, h _ _ hm.buildId⟩

theorem LabelFits.mono {label : String × String × ℤ} {l : Label} (hl : LabelFits s label l) : LabelFits t label l :=
  ⟨h _ _ hl.key, h _ _ hl.str, hl.num, hl.numUnit⟩

theorem ValueTypeFits.mono {kind : String × String} {v : ValueType} (hv : ValueTypeFits s kind v) :
    ValueTypeFits t kind v :=
  ⟨h _ _ hv.type, h _ _ hv.unit⟩

end

theorem LineFits.mono {s t : Table FunctionKey ℕ} (h : Extends s t) {line : SymbolizedLine} {l : Line}
    (hl : LineFits s line l) : LineFits t line l :=
  ⟨h _ _ hl.function, hl.line, hl.column⟩

theorem LocationFits.mono {a b : ProfileBuilder} (h : Grows a b) {address : UInt64} {id : ℕ} {l : Location}
    (hl : LocationFits a address id l) : LocationFits b address id l := by
  refine ⟨hl.id, hl.atAddress, hl.isFolded, ?_, ?_, ?_⟩
  · rw [h.resolve]
    exact hl.unmapped
  · intro info hi
    rw [h.resolve] at hi
    exact h.mappings _ _ (hl.mapped info hi)
  · rw [h.resolve]
    exact hl.lines.imp fun _ _ hf => hf.mono h.functions

theorem firstSpelling_snoc {resolve : UInt64 → ResolvedLocation} {seen : List UInt64} {key : MappingInfo.Key}
    {info : MappingInfo} (h : firstSpelling resolve seen key = some info) (address : UInt64) :
    firstSpelling resolve (seen ++ [address]) key = some info := by
  unfold firstSpelling at h ⊢
  rw [List.filterMap_append, List.find?_append, h, Option.some_or]

/-- A key that no earlier address was resolved into is spelled as by the last one. -/
theorem firstSpelling_last {resolve : UInt64 → ResolvedLocation} {seen : List UInt64} {address : UInt64}
    {info : MappingInfo} (hinfo : (resolve address).mapping = some info)
    (hnew : ∀ a ∈ seen, ∀ i, (resolve a).mapping = some i → i.key ≠ info.key) :
    firstSpelling resolve (seen ++ [address]) info.key = some info := by
  have hnone : (seen.filterMap fun a => (resolve a).mapping).find? (·.key = info.key) = none := by
    refine List.find?_eq_none.mpr fun i hi => ?_
    obtain ⟨a, ha, hmapping⟩ := List.mem_filterMap.mp hi
    rw [decide_eq_true_eq]
    exact hnew a ha i hmapping
  unfold firstSpelling
  rw [List.filterMap_append, List.find?_append, hnone, Option.none_or]
  simp [hinfo]

section
variable {strings strings' : Table String ℕ} {resolve : UInt64 → ResolvedLocation} {seen : List UInt64}
  {key : MappingInfo.Key} {id : ℕ} {m : Mapping}

theorem MappingMet.mono (h : Extends strings strings') (hm : MappingMet strings resolve seen key id m) :
    MappingMet strings' resolve seen key id m := by
  obtain ⟨info, hfirst, hfits⟩ := hm
  exact ⟨info, hfirst, hfits.mono h⟩

theorem MappingMet.snoc (hm : MappingMet strings resolve seen key id m) (address : UInt64) :
    MappingMet strings resolve (seen ++ [address]) key id m := by
  obtain ⟨info, hfirst, hfits⟩ := hm
  exact ⟨info, firstSpelling_snoc hfirst address, hfits⟩

end

/-! ## Strings, functions and mappings -/

namespace ProfileBuilder

variable {b : ProfileBuilder} {seen : List UInt64}

structure OnlyStrings (a b : ProfileBuilder) : Prop where
  strings : Extends a.strings b.strings
  rest : b = { a with profile := { a.profile with stringTable := b.profile.stringTable }, strings := b.strings }

theorem OnlyStrings.refl (a : ProfileBuilder) : OnlyStrings a a := ⟨Extends.refl _, rfl⟩

theorem OnlyStrings.trans {a b c : ProfileBuilder} (hab : OnlyStrings a b) (hbc : OnlyStrings b c) :
    OnlyStrings a c := by
  refine ⟨hab.strings.trans hbc.strings, ?_⟩
  have h := hbc.rest
  rw [hab.rest] at h
  exact h

section
variable {a b : ProfileBuilder} (h : OnlyStrings a b)

include h

theorem OnlyStrings.functions : b.functions = a.functions := by rw [h.rest]
theorem OnlyStrings.mappings : b.mappings = a.mappings := by rw [h.rest]
theorem OnlyStrings.function : b.profile.function = a.profile.function := by rw [h.rest]
theorem OnlyStrings.mapping : b.profile.mapping = a.profile.mapping := by rw [h.rest]
theorem OnlyStrings.locations : b.locations = a.locations := by rw [h.rest]
theorem OnlyStrings.symbolizer : b.symbolizer = a.symbolizer := by rw [h.rest]

theorem OnlyStrings.grows : Grows a b :=
  ⟨h.strings, h.functions ▸ Extends.refl _, h.mappings ▸ Extends.refl _, h.locations ▸ Extends.refl _, h.symbolizer,
    by rw [h.rest]; rfl⟩

theorem OnlyStrings.same : SameLocations a b := by
  rw [h.rest]
  exact ⟨rfl, rfl, rfl⟩

end

theorem intern_spec (h : Built b seen) (value : String) :
    Built (b.intern value).2 seen ∧ OnlyStrings b (b.intern value).2 ∧
      (b.intern value).2.strings.lookup value = some (b.intern value).1 := by
  unfold intern
  cases hl : b.strings.lookup value with
  | some index => exact ⟨h, OnlyStrings.refl b, hl⟩
  | none =>
    have hext := extends_insert hl b.profile.stringTable.length
    have honly : OnlyStrings b
        { b with
          profile := { b.profile with stringTable := b.profile.stringTable ++ [value] }
          strings := b.strings.insert value b.profile.stringTable.length } := ⟨hext, rfl⟩
    have hstrings := h.strings.push hl (e := value) rfl
    rw [Nat.zero_add] at hstrings
    refine ⟨⟨hstrings, hext _ _ h.blank, ?_, ?_, ?_, h.known, h.used, h.flags⟩, honly, ?_⟩
    · exact h.functions.mono fun _ _ _ hf => hf.mono hext
    · exact h.mappings.mono fun _ _ _ hm => hm.mono hext
    · exact h.locations.mono fun _ _ _ hf => hf.mono honly.grows
    · simp only [Table.lookup_insert, if_true]

theorem function_spec (h : Built b seen) {line : SymbolizedLine} (hline : ∃ a ∈ seen, line ∈ (b.resolve a).lines) :
    Built (b.function line).2 seen ∧ Grows b (b.function line).2 ∧ SameLocations b (b.function line).2 ∧
      (b.function line).2.functions.lookup line.functionKey = some (b.function line).1 := by
  unfold function
  cases hl : b.functions.lookup line.functionKey with
  | some id => exact ⟨h, Grows.refl b, SameLocations.refl b, hl⟩
  | none =>
    obtain ⟨h₁, hi₁, hname⟩ := intern_spec h line.function
    obtain ⟨h₂, hi₂, hsystem⟩ := intern_spec h₁ line.systemName
    obtain ⟨h₃, hi₃, hfile⟩ := intern_spec h₂ (line.filename.getD "")
    -- Interning the three strings touches no other table, so the key is still new after it.
    have honly := (hi₁.trans hi₂).trans hi₃
    dsimp only
    generalize b.intern line.function = r₁ at *
    generalize r₁.2.intern line.systemName = r₂ at *
    generalize r₂.2.intern (line.filename.getD "") = r₃ at *
    have hl₃ : r₃.2.functions.lookup line.functionKey = none := by rw [honly.functions, hl]
    have hlen : b.profile.function.length + 1 = 1 + r₃.2.profile.function.length := by
      rw [honly.function, Nat.add_comm]
    rw [hlen]
    have hext := extends_insert hl₃ (1 + r₃.2.profile.function.length)
    have hfits : FunctionFits r₃.2.strings line.functionKey (1 + r₃.2.profile.function.length)
        { id := 1 + r₃.2.profile.function.length, name := r₁.1, systemName := r₂.1, filename := r₃.1,
          startLine := 0 } :=
      ⟨rfl, hi₃.strings _ _ (hi₂.strings _ _ hname), hi₃.strings _ _ hsystem, hfile, rfl⟩
    have hgrows : Grows r₃.2 { r₃.2 with
        profile := { r₃.2.profile with function := r₃.2.profile.function ++ [
          { id := 1 + r₃.2.profile.function.length, name := r₁.1, systemName := r₂.1, filename := r₃.1,
            startLine := 0 }] }
        functions := r₃.2.functions.insert line.functionKey (1 + r₃.2.profile.function.length) } :=
      ⟨Extends.refl _, hext, Extends.refl _, Extends.refl _, rfl, rfl⟩
    refine ⟨⟨h₃.strings, h₃.blank, h₃.functions.push hl₃ hfits, h₃.mappings, ?_, h₃.known, ?_, h₃.flags⟩,
      honly.grows.trans hgrows, honly.same.trans ⟨rfl, rfl, rfl⟩, ?_⟩
    · exact h₃.locations.mono fun _ _ _ hf => hf.mono hgrows
    · intro key hkey
      rcases (AList.mem_insert _).mp hkey with rfl | hkey
      · obtain ⟨a, ha, hmem⟩ := hline
        rw [← honly.grows.resolve] at hmem
        exact ⟨a, ha, line, hmem, rfl⟩
      · exact h₃.used key hkey
    · simp only [Table.lookup_insert, if_true]

theorem line_spec (h : Built b seen) {line : SymbolizedLine} (hline : ∃ a ∈ seen, line ∈ (b.resolve a).lines) :
    Built (b.line line).2 seen ∧ Grows b (b.line line).2 ∧ SameLocations b (b.line line).2 ∧
      LineFits (b.line line).2.functions line (b.line line).1 := by
  obtain ⟨hb, hg, hs, hf⟩ := function_spec h hline
  exact ⟨hb, hg, hs, hf, rfl, rfl⟩

theorem resolvedInto_snoc (b : ProfileBuilder) (seen : List UInt64) (address : UInt64) (key : MappingInfo.Key) :
    resolvedInto b (seen ++ [address]) key = resolvedInto b seen key ++
      if (b.resolve address).mapping.map MappingInfo.key = some key then [b.resolve address] else [] := by
  unfold resolvedInto
  rw [List.map_append, List.filter_append]
  by_cases h : (b.resolve address).mapping.map MappingInfo.key = some key
  · rw [if_pos h, List.map_singleton, List.filter_singleton, decide_eq_true h]
    rfl
  · rw [if_neg h, List.map_singleton, List.filter_singleton, decide_eq_false h]
    rfl

theorem flagsFit_merge {rs : List ResolvedLocation} {m : Mapping} (h : FlagsFit rs m) (resolved : ResolvedLocation) :
    FlagsFit (rs ++ [resolved]) (mergeFlags resolved m) := by
  refine ⟨?_, ?_, ?_, ?_⟩
  · simp [mergeFlags, h.hasFunctions]
  · simp [mergeFlags, h.hasFilenames]
  · simp [mergeFlags, h.hasLineNumbers]
  · simp [mergeFlags, h.hasInlineFrames]

theorem used_snoc (h : Built b seen) (address : UInt64) : ∀ key ∈ b.functions,
    ∃ a ∈ seen ++ [address], ∃ line ∈ (b.resolve a).lines, line.functionKey = key := by
  intro key hkey
  obtain ⟨a, ha, hline⟩ := h.used key hkey
  exact ⟨a, List.mem_append_left _ ha, hline⟩

theorem known_snoc (h : Built b seen) {address : UInt64} {keys : Table MappingInfo.Key ℕ}
    (hkeys : ∀ key ∈ b.mappings, key ∈ keys)
    (hmem : ∀ info, (b.resolve address).mapping = some info → info.key ∈ keys) :
    ∀ a ∈ seen ++ [address], ∀ info, (b.resolve a).mapping = some info → info.key ∈ keys := by
  intro a ha info hinfo
  rcases List.mem_append.mp ha with ha | ha
  · exact hkeys _ (h.known a ha info hinfo)
  · rw [List.mem_singleton.mp ha] at hinfo
    exact hmem info hinfo

/-- An address whose mapping is known changes the flags of its entry. -/
theorem merge_spec (h : Built b seen) {address : UInt64} {info : MappingInfo} {id : ℕ}
    (hinfo : (b.resolve address).mapping = some info) (hid : b.mappings.lookup info.key = some id) :
    Built { b with profile := { b.profile with
      mapping := b.profile.mapping.modify (id - 1) (mergeFlags (b.resolve address)) } } (seen ++ [address]) := by
  refine ⟨h.strings, h.blank, h.functions, ?_, ?_, ?_, used_snoc h address, ?_⟩
  · refine (h.mappings.modify _ _ fun _ _ _ hm => ?_).mono fun _ _ _ hm => hm.snoc address
    obtain ⟨first, hfirst, hfits⟩ := hm
    exact ⟨first, hfirst, hfits.id, hfits.start, hfits.limit, hfits.offset, hfits.filename, hfits.buildId⟩
  · exact h.locations.mono fun _ _ _ hf => ⟨hf.id, hf.atAddress, hf.isFolded, hf.unmapped, hf.mapped, hf.lines⟩
  · refine known_snoc h (fun _ hkey => hkey) fun i hi => ?_
    have he : i = info := Option.some.inj (hi.symm.trans hinfo)
    rw [he]
    exact Table.mem_of_lookup hid
  · intro key id' m hl hm
    change b.mappings.lookup key = some id' at hl
    change FlagsFit (resolvedInto b (seen ++ [address]) key) m
    rw [resolvedInto_snoc, hinfo, Option.map_some]
    by_cases he : key = info.key
    · subst he
      have hidid : id' = id := Option.some.inj (hl.symm.trans hid)
      subst hidid
      rw [List.getElem?_modify_eq] at hm
      obtain ⟨m', hm', rfl⟩ := Option.map_eq_some_iff.mp hm
      rw [if_pos rfl]
      exact flagsFit_merge (h.flags _ id' m' hl hm') _
    · have hne : id - 1 ≠ id' - 1 := by
        intro heq
        have h₁ := (h.mappings.lt hid).1
        have h₂ := (h.mappings.lt hl).1
        have hidid : id = id' := by omega
        exact he (h.mappings.injective key info.key id' hl (hidid ▸ hid))
      rw [List.getElem?_modify_ne _ _ hne] at hm
      rw [if_neg fun heq => he (Option.some.inj heq).symm, List.append_nil]
      exact h.flags key id' m hl hm

def newMapping (id : ℕ) (info : MappingInfo) (resolved : ResolvedLocation) (filename buildId : ℕ) : Mapping where
  id := id
  memoryStart := info.start
  memoryLimit := info.limit
  fileOffset := info.offset
  filename := filename
  buildId := buildId
  hasFunctions := !resolved.lines.isEmpty
  hasFilenames := hasFilenames resolved
  hasLineNumbers := hasLineNumbers resolved
  hasInlineFrames := decide (resolved.lines.length > 1)

theorem push_spec (h : Built b seen) {address : UInt64} {info : MappingInfo} {filename buildId : ℕ}
    (hinfo : (b.resolve address).mapping = some info) (hnew : b.mappings.lookup info.key = none)
    (hfilename : b.strings.lookup info.filename.toStringLossy = some filename)
    (hbuild : b.strings.lookup (info.buildId.getD "") = some buildId) :
    Built { b with
      profile := { b.profile with mapping := b.profile.mapping ++
        [newMapping (1 + b.profile.mapping.length) info (b.resolve address) filename buildId] }
      mappings := b.mappings.insert info.key (1 + b.profile.mapping.length) } (seen ++ [address]) := by
  have hext := extends_insert hnew (1 + b.profile.mapping.length)
  -- No earlier address had a mapping with this key: the spelling met now is the first.
  have hunknown : ∀ a ∈ seen, ∀ i, (b.resolve a).mapping = some i → i.key ≠ info.key := by
    intro a ha i hi hkey
    exact Table.notMem_iff.mpr hnew (hkey ▸ h.known a ha i hi)
  have hmet : MappingMet b.strings b.resolve (seen ++ [address]) info.key (1 + b.profile.mapping.length)
      (newMapping (1 + b.profile.mapping.length) info (b.resolve address) filename buildId) :=
    ⟨info, firstSpelling_last hinfo hunknown, rfl, rfl, rfl, rfl, hfilename, hbuild⟩
  have hmappings := (h.mappings.mono fun _ _ _ hm => hm.snoc address).push hnew hmet
  refine ⟨h.strings, h.blank, h.functions, hmappings, ?_, ?_, used_snoc h address, ?_⟩
  · exact h.locations.mono fun _ _ _ hf => ⟨hf.id, hf.atAddress, hf.isFolded, hf.unmapped,
      fun i hi => hext _ _ (hf.mapped i hi), hf.lines⟩
  · refine known_snoc h (fun key hkey => (AList.mem_insert _).mpr (Or.inr hkey)) fun i hi => ?_
    rw [Option.some.inj (hi.symm.trans hinfo)]
    exact (AList.mem_insert _).mpr (Or.inl rfl)
  · intro key id' m hl hm
    change (b.mappings.insert info.key (1 + b.profile.mapping.length)).lookup key = some id' at hl
    change FlagsFit (resolvedInto b (seen ++ [address]) key) m
    rw [resolvedInto_snoc, hinfo, Option.map_some]
    rcases Table.lookup_insert_eq_some.mp hl with ⟨rfl, rfl⟩ | ⟨he, hl⟩
    · have hnone : resolvedInto b seen info.key = [] := by
        refine List.filter_eq_nil_iff.mpr fun r hr => ?_
        obtain ⟨a, ha, rfl⟩ := List.mem_map.mp hr
        rw [decide_eq_true_eq, Option.map_eq_some_iff]
        rintro ⟨i, hi, hkey⟩
        exact hunknown a ha i hi hkey
      rw [Nat.add_sub_cancel_left, List.getElem?_concat_length, Option.some.injEq] at hm
      subst hm
      rw [hnone, if_pos rfl]
      refine ⟨?_, ?_, ?_, ?_⟩
      · simp [newMapping]
      · simp [newMapping]
      · simp [newMapping]
      · simp [newMapping]
    · have hlt := h.mappings.lt hl
      rw [List.getElem?_append_left (by omega)] at hm
      rw [if_neg fun heq => he (Option.some.inj heq).symm, List.append_nil]
      exact h.flags key id' m hl hm

theorem mapping_spec (h : Built b seen) {address : UInt64} {info : MappingInfo}
    (hinfo : (b.resolve address).mapping = some info) :
    let r := b.mapping info (b.resolve address)
    Built r.2 (seen ++ [address]) ∧ Grows b r.2 ∧ SameLocations b r.2 ∧ r.2.mappings.lookup info.key = some r.1 := by
  unfold mapping
  cases hl : b.mappings.lookup info.key with
  | some id =>
    exact ⟨merge_spec h hinfo hl, ⟨Extends.refl _, Extends.refl _, Extends.refl _, Extends.refl _, rfl, rfl⟩,
      ⟨rfl, rfl, rfl⟩, hl⟩
  | none =>
    obtain ⟨h₁, hi₁, hfilename⟩ := intern_spec h info.filename.toStringLossy
    obtain ⟨h₂, hi₂, hbuild⟩ := intern_spec h₁ (info.buildId.getD "")
    have honly := hi₁.trans hi₂
    dsimp only
    generalize b.intern info.filename.toStringLossy = r₁ at *
    generalize r₁.2.intern (info.buildId.getD "") = r₂ at *
    have hl₂ : r₂.2.mappings.lookup info.key = none := by rw [honly.mappings, hl]
    have hlen : b.profile.mapping.length + 1 = 1 + r₂.2.profile.mapping.length := by
      rw [honly.mapping, Nat.add_comm]
    have hinfo₂ : (r₂.2.resolve address).mapping = some info := by rw [honly.grows.resolve, hinfo]
    have hbuilt := push_spec h₂ hinfo₂ hl₂ (hi₂.strings _ _ hfilename) hbuild
    rw [hlen, ← honly.grows.resolve]
    refine ⟨hbuilt, honly.grows.trans ?_, honly.same.trans ⟨rfl, rfl, rfl⟩, ?_⟩
    · exact ⟨Extends.refl _, Extends.refl _, extends_insert hl₂ _, Extends.refl _, rfl, rfl⟩
    · simp only [Table.lookup_insert, if_true]

/-! ## Locations -/

structure Located (b : ProfileBuilder) : Prop where
  built : Built b (b.profile.location.map Location.address)
  total : b.stats.totalLocations = b.profile.location.length
  symbolized : b.stats.symbolizedLocations = (b.profile.location.filter fun l => !l.line.isEmpty).length

theorem built_unmapped (h : Built b seen) {address : UInt64} (hn : (b.resolve address).mapping = none) :
    Built b (seen ++ [address]) := by
  refine ⟨h.strings, h.blank, h.functions, h.mappings.mono fun _ _ _ hm => hm.snoc address, h.locations, ?_,
    used_snoc h address, ?_⟩
  · refine known_snoc h (fun _ hkey => hkey) fun i hi => ?_
    rw [hn] at hi
    cases hi
  · intro key id m hl hm
    rw [resolvedInto_snoc, hn, if_neg (by simp), List.append_nil]
    exact h.flags key id m hl hm

theorem optionMapping_spec (h : Built b seen) (address : UInt64) :
    let r := b.optionMapping (b.resolve address)
    Built r.2 (seen ++ [address]) ∧ Grows b r.2 ∧ SameLocations b r.2 ∧
      ((b.resolve address).mapping = none → r.1 = 0) ∧
      ∀ info, (b.resolve address).mapping = some info → r.2.mappings.lookup info.key = some r.1 := by
  unfold optionMapping
  cases hm : (b.resolve address).mapping with
  | none => exact ⟨built_unmapped h hm, Grows.refl b, SameLocations.refl b, fun _ => rfl, fun _ hi => by cases hi⟩
  | some info =>
    obtain ⟨hb, hg, hs, hl⟩ := mapping_spec h hm
    refine ⟨hb, hg, hs, nofun, fun i hi => ?_⟩
    cases hi
    exact hl

theorem lines_spec (h : Built b seen) {address : UInt64} (ha : address ∈ seen) :
    let r := mapState line b (b.resolve address).lines
    Built r.2 seen ∧ Grows b r.2 ∧ SameLocations b r.2 ∧
      List.Forall₂ (LineFits r.2.functions) (b.resolve address).lines r.1 := by
  obtain ⟨hb, hg, hf⟩ := @mapState_spec ProfileBuilder SymbolizedLine Line line
    (fun b' => Built b' seen ∧ b'.resolve = b.resolve) (fun a b => Grows a b ∧ SameLocations a b)
    (fun b => LineFits b.functions) (fun a => ⟨Grows.refl a, SameLocations.refl a⟩)
    (fun hab hbc => ⟨hab.1.trans hbc.1, hab.2.trans hbc.2⟩) (fun hg hl => hl.mono hg.1.functions)
    (b.resolve address).lines (fun b' line hline hb' => by
      obtain ⟨hbuilt, hr⟩ := hb'
      rw [← hr] at hline
      obtain ⟨hbuilt', hg, hs, hl⟩ := line_spec hbuilt ⟨address, ha, hline⟩
      exact ⟨⟨hbuilt', hg.resolve.trans hr⟩, ⟨hg, hs⟩, hl⟩) b ⟨h, rfl⟩
  exact ⟨hb.1, hg.1, hg.2, hf⟩

theorem pushLocation_spec {address : UInt64} {mappingId : ℕ} {lines : List Line}
    (h : Built b (b.profile.location.map Location.address ++ [address])) (hnew : b.locations.lookup address = none)
    (hunmapped : (b.resolve address).mapping = none → mappingId = 0)
    (hmapped : ∀ info, (b.resolve address).mapping = some info → b.mappings.lookup info.key = some mappingId)
    (hlines : List.Forall₂ (LineFits b.functions) (b.resolve address).lines lines) :
    let r := b.pushLocation address mappingId lines
    Built r.2 (r.2.profile.location.map Location.address) ∧ Grows b r.2 ∧ r.2.locations.lookup address = some r.1 := by
  intro r
  have hlen : b.profile.location.length + 1 = 1 + b.profile.location.length := Nat.add_comm _ _
  have hgrows : Grows b r.2 :=
    ⟨Extends.refl _, Extends.refl _, Extends.refl _, extends_insert hnew _, rfl, rfl⟩
  have hfits : LocationFits b address (1 + b.profile.location.length)
      { id := b.profile.location.length + 1, mappingId := mappingId, address := address, line := lines,
        isFolded := false } := ⟨hlen, rfl, rfl, hunmapped, hmapped, hlines⟩
  have hlocations := h.locations.push hnew hfits
  rw [← hlen] at hlocations
  have haddresses : r.2.profile.location.map Location.address = b.profile.location.map Location.address ++
      [address] := by
    simp [r, pushLocation]
  rw [haddresses]
  refine ⟨⟨h.strings, h.blank, h.functions, h.mappings, ?_, h.known, h.used, h.flags⟩, hgrows, ?_⟩
  · exact hlocations.mono fun _ _ _ hf => hf.mono hgrows
  · simp only [r, pushLocation, Table.lookup_insert, if_true]

/-- With or without a symbolizer, a new address is resolved, counted and added. -/
theorem location_new {address : UInt64} (hl : b.locations.lookup address = none) :
    b.location address =
      let mapped := (b.countLocation.countSymbolized (b.resolve address)).optionMapping (b.resolve address)
      let lines := mapState line mapped.2 (b.resolve address).lines
      lines.2.pushLocation address mapped.1 lines.1 := by
  unfold location resolve
  rw [hl]
  cases hs : b.symbolizer with
  | none => simp only [countLocation, hs, countSymbolized, optionMapping, mapState]; rfl
  | some symbolizer => simp only [countLocation, hs]

theorem countSymbolized_same (b : ProfileBuilder) (resolved : ResolvedLocation) :
    Grows b (b.countLocation.countSymbolized resolved) ∧
      (b.countLocation.countSymbolized resolved).profile = b.profile ∧
      (b.countLocation.countSymbolized resolved).locations = b.locations ∧
      (b.countLocation.countSymbolized resolved).stats.totalLocations = b.stats.totalLocations + 1 ∧
      (b.countLocation.countSymbolized resolved).stats.symbolizedLocations =
        b.stats.symbolizedLocations + if resolved.lines.isEmpty then 0 else 1 := by
  unfold countLocation countSymbolized ResolvedLocation.isSymbolized
  cases resolved.lines.isEmpty with
  | true => exact ⟨⟨Extends.refl _, Extends.refl _, Extends.refl _, Extends.refl _, rfl, rfl⟩, rfl, rfl, rfl, rfl⟩
  | false => exact ⟨⟨Extends.refl _, Extends.refl _, Extends.refl _, Extends.refl _, rfl, rfl⟩, rfl, rfl, rfl, rfl⟩

theorem built_counted (h : Built b seen) (resolved : ResolvedLocation) :
    Built (b.countLocation.countSymbolized resolved) seen := by
  unfold countLocation countSymbolized
  cases resolved.isSymbolized with
  | true =>
    exact ⟨h.strings, h.blank, h.functions, h.mappings,
      h.locations.mono fun _ _ _ hf => ⟨hf.id, hf.atAddress, hf.isFolded, hf.unmapped, hf.mapped, hf.lines⟩,
      h.known, h.used, h.flags⟩
  | false =>
    exact ⟨h.strings, h.blank, h.functions, h.mappings,
      h.locations.mono fun _ _ _ hf => ⟨hf.id, hf.atAddress, hf.isFolded, hf.unmapped, hf.mapped, hf.lines⟩,
      h.known, h.used, h.flags⟩

theorem location_spec (h : Located b) (address : UInt64) :
    Located (b.location address).2 ∧ Grows b (b.location address).2 ∧
      (b.location address).2.locations.lookup address = some (b.location address).1 := by
  cases hl : b.locations.lookup address with
  | some id =>
    have he : b.location address = (id, b) := by
      unfold location
      rw [hl]
    rw [he]
    exact ⟨h, Grows.refl b, hl⟩
  | none =>
    rw [location_new hl]
    obtain ⟨hg₀, hp₀, hl₀, ht₀, hs₀⟩ := countSymbolized_same b (b.resolve address)
    have h₀ := built_counted h.built (b.resolve address)
    -- The counters are raised first, then the mapping, the lines and last the location itself.
    obtain ⟨b₀, hb₀⟩ : ∃ b₀, b₀ = b.countLocation.countSymbolized (b.resolve address) := ⟨_, rfl⟩
    rw [← hb₀] at hg₀ hp₀ hl₀ ht₀ hs₀ h₀ ⊢
    rw [← hp₀] at h₀
    rw [← hg₀.resolve] at hs₀ ⊢
    obtain ⟨h₁, hg₁, hsame₁, hunmapped, hmapped⟩ := optionMapping_spec h₀ address
    have hr₁ := hg₁.resolve
    obtain ⟨h₂, hg₂, hsame₂, hlines⟩ := lines_spec h₁ (List.mem_append_right _ (List.mem_singleton_self address))
    rw [hr₁] at h₂ hg₂ hsame₂ hlines
    dsimp only at h₁ hg₁ hsame₁ hunmapped hmapped h₂ hg₂ hsame₂ hlines ⊢
    generalize b₀.optionMapping (b₀.resolve address) = r₁ at *
    generalize mapState line r₁.2 (b₀.resolve address).lines = r₂ at *
    have hg := (hg₀.trans hg₁).trans hg₂
    have hsame := hsame₁.trans hsame₂
    rw [← hsame.location] at h₂
    have hnew : r₂.2.locations.lookup address = none := by rw [hsame.locations, hl₀, hl]
    have hr : r₂.2.resolve = b₀.resolve := (hg₁.trans hg₂).resolve
    rw [← hr] at hunmapped hmapped hlines
    obtain ⟨h₃, hg₃, hid⟩ := pushLocation_spec h₂ hnew hunmapped
      (fun info hi => hg₂.mappings _ _ (hmapped info hi)) hlines
    refine ⟨⟨h₃, ?_, ?_⟩, hg.trans hg₃, hid⟩
    · change r₂.2.stats.totalLocations = (r₂.2.profile.location ++ [_]).length
      rw [hsame.stats, ht₀, h.total, hsame.location, hp₀, List.length_append, List.length_singleton]
    · change r₂.2.stats.symbolizedLocations = ((r₂.2.profile.location ++ [_]).filter _).length
      have hempty : r₂.1.isEmpty = (b₀.resolve address).lines.isEmpty := by
        rw [← hr]
        exact isEmpty_of_forall₂ hlines
      rw [hsame.stats, hs₀, h.symbolized, hsame.location, hp₀, List.filter_append, List.length_append]
      congr 1
      cases he : (b₀.resolve address).lines.isEmpty with
      | true => simp [hempty, he]
      | false => simp [hempty, he]

end ProfileBuilder

/-! ## Samples -/

/-- A sample as it is given to a writer: a label has a key, a string and a number. -/
structure SampleInput where
  addresses : List UInt64
  values : List ℤ
  labels : List (String × String × ℤ)
  deriving DecidableEq, Repr

def targetLabels (labels : List (String × String)) : List (String × String × ℤ) :=
  labels.map fun label => (label.1, label.2, 0)

def threadLabels (pid tid : UInt32) (name : Option String) : List (String × String × ℤ) :=
  [("process.pid", "", (pid.toNat : ℤ)), ("thread.id", "", (tid.toNat : ℤ))] ++
    name.toList.map fun name => ("thread.name", name, 0)

def Stack.addresses (stack : Stack) : List UInt64 := stack.frames.map Frame.address

def attributedInput (labels : List (String × String)) (sample : AttributedStack × List ℤ) : SampleInput where
  addresses := sample.1.stack.addresses
  values := sample.2
  labels := targetLabels labels ++ threadLabels sample.1.pid sample.1.tid sample.1.threadName

def labelledInput (labels : List (String × String)) (sample : Stack × List ℤ) : SampleInput where
  addresses := sample.1.addresses
  values := sample.2
  labels := targetLabels labels

def ProfileSamples.inputs : ProfileSamples → List SampleInput
  | .attributed labels samples => samples.map (attributedInput labels)
  | .labelled labels samples => samples.map (labelledInput labels)

structure SampleFits (b : ProfileBuilder) (input : SampleInput) (s : Sample) : Prop where
  locations : List.Forall₂ (fun address id => b.locations.lookup address = some id) input.addresses s.locationId
  values : s.value = input.values
  labels : List.Forall₂ (LabelFits b.strings) input.labels s.label

def Profile.heading (p : Profile) : Profile := { p.outline with sample := [] }

structure Continues (a b : ProfileBuilder) : Prop where
  strings : Extends a.strings b.strings
  locations : Extends a.locations b.locations
  symbolizer : b.symbolizer = a.symbolizer
  heading : b.profile.heading = a.profile.heading

theorem Continues.refl (a : ProfileBuilder) : Continues a a := ⟨Extends.refl _, Extends.refl _, rfl, rfl⟩

theorem Continues.trans {a b c : ProfileBuilder} (hab : Continues a b) (hbc : Continues b c) : Continues a c :=
  ⟨hab.strings.trans hbc.strings, hab.locations.trans hbc.locations, hbc.symbolizer.trans hab.symbolizer,
    hbc.heading.trans hab.heading⟩

theorem Grows.continues {a b : ProfileBuilder} (h : Grows a b) : Continues a b :=
  ⟨h.strings, h.locations, h.symbolizer, by unfold Profile.heading; rw [h.outline]⟩

theorem Grows.sample {a b : ProfileBuilder} (h : Grows a b) : b.profile.sample = a.profile.sample := by
  have hs : b.profile.outline.sample = a.profile.outline.sample := by rw [h.outline]
  exact hs

theorem SampleFits.mono {a b : ProfileBuilder} (h : Continues a b) {input : SampleInput} {s : Sample}
    (hs : SampleFits a input s) : SampleFits b input s :=
  ⟨hs.locations.imp fun _ _ hl => h.locations _ _ hl, hs.values, hs.labels.imp fun _ _ hl => hl.mono h.strings⟩

open ProfileBuilder in
structure Writing (b : ProfileBuilder) (inputs : List SampleInput) : Prop where
  located : Located b
  samples : List.Forall₂ (SampleFits b) inputs b.profile.sample

structure HeadingFits (strings : Table String ℕ) (header : ProfileHeader) (p : Profile) : Prop where
  sampleType : List.Forall₂ (ValueTypeFits strings) header.sampleTypes p.sampleType
  periodType : List.Forall₂ (ValueTypeFits strings) header.periodType.toList p.periodType.toList
  period : p.period = header.period
  defaultSampleType : strings.lookup header.defaultSampleType = some p.defaultSampleType
  comment : List.Forall₂ (fun comment index => strings.lookup comment = some index) header.comments p.comment

theorem HeadingFits.mono {s t : Table String ℕ} (he : Extends s t) {header : ProfileHeader} {p p' : Profile}
    (hp : p'.heading = p.heading) (h : HeadingFits s header p) : HeadingFits t header p' := by
  have hs : p'.heading.sampleType = p.heading.sampleType := by rw [hp]
  have ht : p'.heading.periodType = p.heading.periodType := by rw [hp]
  have hn : p'.heading.period = p.heading.period := by rw [hp]
  have hd : p'.heading.defaultSampleType = p.heading.defaultSampleType := by rw [hp]
  have hc : p'.heading.comment = p.heading.comment := by rw [hp]
  change p'.sampleType = p.sampleType at hs
  change p'.periodType = p.periodType at ht
  change p'.period = p.period at hn
  change p'.defaultSampleType = p.defaultSampleType at hd
  change p'.comment = p.comment at hc
  refine ⟨?_, ?_, hn.trans h.period, ?_, ?_⟩
  · rw [hs]
    exact h.sampleType.imp fun _ _ hv => hv.mono he
  · rw [ht]
    exact h.periodType.imp fun _ _ hv => hv.mono he
  · rw [hd]
    exact he _ _ h.defaultSampleType
  · rw [hc]
    exact h.comment.imp fun _ _ hi => he _ _ hi

namespace ProfileBuilder

variable {b : ProfileBuilder} {inputs : List SampleInput}

theorem located_same {b' : ProfileBuilder} (h : Located b) (hb : Built b' (b.profile.location.map Location.address))
    (hs : SameLocations b b') : Located b' :=
  ⟨by rw [hs.location]; exact hb, by rw [hs.stats, hs.location, h.total], by rw [hs.stats, hs.location, h.symbolized]⟩

theorem intern_located (h : Located b) (value : String) :
    Located (b.intern value).2 ∧ Grows b (b.intern value).2 ∧
      (b.intern value).2.strings.lookup value = some (b.intern value).1 := by
  obtain ⟨hb, ho, hl⟩ := intern_spec h.built value
  exact ⟨located_same h hb ho.same, ho.grows, hl⟩

theorem stringLabel_spec (h : Located b) (label : String × String) :
    Located (b.stringLabel label).2 ∧ Grows b (b.stringLabel label).2 ∧
      LabelFits (b.stringLabel label).2.strings (label.1, label.2, 0) (b.stringLabel label).1 := by
  obtain ⟨h₁, hg₁, hkey⟩ := intern_located h label.1
  obtain ⟨h₂, hg₂, hstr⟩ := intern_located h₁ label.2
  exact ⟨h₂, hg₁.trans hg₂, hg₂.strings _ _ hkey, hstr, rfl, rfl⟩

theorem numLabel_spec (h : Located b) (label : String × ℤ) :
    Located (b.numLabel label).2 ∧ Grows b (b.numLabel label).2 ∧
      LabelFits (b.numLabel label).2.strings (label.1, "", label.2) (b.numLabel label).1 := by
  obtain ⟨h₁, hg₁, hkey⟩ := intern_located h label.1
  exact ⟨h₁, hg₁, hkey, h₁.built.blank, rfl, rfl⟩

theorem valueType_spec (h : Located b) (kind : String × String) :
    Located (b.valueType kind).2 ∧ Grows b (b.valueType kind).2 ∧
      ValueTypeFits (b.valueType kind).2.strings kind (b.valueType kind).1 := by
  obtain ⟨h₁, hg₁, htype⟩ := intern_located h kind.1
  obtain ⟨h₂, hg₂, hunit⟩ := intern_located h₁ kind.2
  exact ⟨h₂, hg₁.trans hg₂, hg₂.strings _ _ htype, hunit⟩

/-- A traversal that interns keeps the meaning of all it has interned. -/
theorem traverse_spec {α β : Type} {f : ProfileBuilder → α → β × ProfileBuilder}
    {R : Table String ℕ → α → β → Prop} (hmono : ∀ {s t a b}, Extends s t → R s a b → R t a b)
    (hf : ∀ b a, Located b → Located (f b a).2 ∧ Grows b (f b a).2 ∧ R (f b a).2.strings a (f b a).1)
    (h : Located b) (l : List α) :
    Located (mapState f b l).2 ∧ Grows b (mapState f b l).2 ∧
      List.Forall₂ (R (mapState f b l).2.strings) l (mapState f b l).1 :=
  @mapState_spec ProfileBuilder α β f Located Grows (fun b => R b.strings) Grows.refl Grows.trans
    (fun hg hfit => hmono hg.strings hfit) l (fun b a _ hb => hf b a hb) b h

theorem sampleLabels_spec (h : Located b) (labels : List (String × String)) :
    Located (b.sampleLabels labels).2 ∧ Grows b (b.sampleLabels labels).2 ∧
      List.Forall₂ (LabelFits (b.sampleLabels labels).2.strings) (targetLabels labels) (b.sampleLabels labels).1 := by
  obtain ⟨hl, hg, hf⟩ := traverse_spec (R := fun s (label : String × String) l => LabelFits s (label.1, label.2, 0) l)
    (fun he hfit => hfit.mono he) (fun b label hb => stringLabel_spec hb label) h labels
  exact ⟨hl, hg, List.forall₂_map_left_iff.mpr hf⟩

theorem threadLabels_spec (h : Located b) (pid tid : UInt32) (name : Option String) :
    Located (b.threadLabels pid tid name).2 ∧ Grows b (b.threadLabels pid tid name).2 ∧
      List.Forall₂ (LabelFits (b.threadLabels pid tid name).2.strings) (RustProfile.threadLabels pid tid name)
        (b.threadLabels pid tid name).1 := by
  obtain ⟨h₁, hg₁, hnumbers⟩ :=
    traverse_spec (R := fun s (label : String × ℤ) l => LabelFits s (label.1, "", label.2) l)
    (fun he hfit => hfit.mono he) (fun b label hb => numLabel_spec hb label) h
    [("process.pid", (pid.toNat : ℤ)), ("thread.id", (tid.toNat : ℤ))]
  obtain ⟨h₂, hg₂, hnames⟩ :=
    traverse_spec (R := fun s (label : String × String) l => LabelFits s (label.1, label.2, 0) l)
    (fun he hfit => hfit.mono he) (fun b label hb => stringLabel_spec hb label) h₁
    (name.toList.map fun name => ("thread.name", name))
  refine ⟨h₂, hg₁.trans hg₂, ?_⟩
  have hleft : List.Forall₂ (LabelFits (b.threadLabels pid tid name).2.strings)
      [("process.pid", "", (pid.toNat : ℤ)), ("thread.id", "", (tid.toNat : ℤ))]
      (mapState numLabel b [("process.pid", (pid.toNat : ℤ)), ("thread.id", (tid.toNat : ℤ))]).1 :=
    (List.forall₂_map_left_iff (f := fun label : String × ℤ => (label.1, "", label.2))).mpr
      (hnumbers.imp fun _ _ hl => hl.mono hg₂.strings)
  have hright := (List.forall₂_map_left_iff (f := fun label : String × String =>
    (label.1, label.2, (0 : ℤ)))).mpr hnames
  rw [List.map_map] at hright
  exact List.rel_append hleft hright

theorem located_withProfile (h : Located b) {p : Profile} (hs : p.stringTable = b.profile.stringTable)
    (hf : p.function = b.profile.function) (hm : p.mapping = b.profile.mapping)
    (hl : p.location = b.profile.location) : Located { b with profile := p } := by
  refine ⟨⟨hs ▸ h.built.strings, h.built.blank, hf ▸ h.built.functions, ?_, ?_, ?_, ?_, ?_⟩, ?_, ?_⟩
  · change Interned b.mappings p.mapping 1 (MappingMet b.strings b.resolve (p.location.map Location.address))
    rw [hm, hl]
    exact h.built.mappings
  · change Interned b.locations p.location 1 _
    rw [hl]
    exact h.built.locations.mono fun _ _ _ hf => ⟨hf.id, hf.atAddress, hf.isFolded, hf.unmapped, hf.mapped, hf.lines⟩
  · change ∀ address ∈ p.location.map Location.address, _
    rw [hl]
    exact h.built.known
  · change ∀ key ∈ b.functions, ∃ address ∈ p.location.map Location.address, _
    rw [hl]
    exact h.built.used
  · intro info id m hid hmapping
    change p.mapping[id - 1]? = some m at hmapping
    change FlagsFit (resolvedInto b (p.location.map Location.address) info) m
    rw [hm] at hmapping
    rw [hl]
    exact h.built.flags info id m hid hmapping
  · change b.stats.totalLocations = p.location.length
    rw [hl, h.total]
  · change b.stats.symbolizedLocations = (p.location.filter _).length
    rw [hl, h.symbolized]

theorem addSample_spec (h : Writing b inputs) (stack : Stack) (values : List ℤ) {labels : List (String × String × ℤ)}
    {ls : List Label} (hl : List.Forall₂ (LabelFits b.strings) labels ls) :
    Writing (b.addSample stack values ls) (inputs ++ [⟨stack.addresses, values, labels⟩]) ∧
      Continues b (b.addSample stack values ls) := by
  obtain ⟨hloc, hg, hids⟩ := @mapState_spec ProfileBuilder UInt64 ℕ location Located Grows
    (fun b address id => b.locations.lookup address = some id) Grows.refl Grows.trans
    (fun hg hl => hg.locations _ _ hl) stack.addresses (fun b address _ hb => location_spec hb address) b h.located
  have he : b.addSample stack values ls =
      { (mapState location b stack.addresses).2 with
        profile := { (mapState location b stack.addresses).2.profile with
          sample := (mapState location b stack.addresses).2.profile.sample ++
            [⟨(mapState location b stack.addresses).1, values, ls⟩] } } := rfl
  rw [he]
  generalize mapState location b stack.addresses = r at *
  have hadd : Continues r.2
      { r.2 with profile := { r.2.profile with sample := r.2.profile.sample ++ [⟨r.1, values, ls⟩] } } :=
    ⟨Extends.refl _, Extends.refl _, rfl, rfl⟩
  have hc := hg.continues.trans hadd
  refine ⟨⟨located_withProfile hloc rfl rfl rfl rfl, ?_⟩, hc⟩
  have hprevious := h.samples.imp fun _ _ hs => hs.mono hc
  rw [← hg.sample] at hprevious
  refine List.rel_append hprevious (List.Forall₂.cons ?_ List.Forall₂.nil)
  exact ⟨hids, rfl, hl.imp fun _ _ hf => hf.mono hg.strings⟩

theorem addAttributed_spec (h : Writing b inputs) (labels : List (String × String))
    (sample : AttributedStack × List ℤ) :
    Writing (b.addAttributed labels sample) (inputs ++ [attributedInput labels sample]) ∧
      Continues b (b.addAttributed labels sample) := by
  obtain ⟨h₁, hg₁, hl₁⟩ := sampleLabels_spec h.located labels
  obtain ⟨h₂, hg₂, hl₂⟩ := threadLabels_spec h₁ sample.1.pid sample.1.tid sample.1.threadName
  have hc := (hg₁.trans hg₂).continues
  have hw : Writing ((b.sampleLabels labels).2.threadLabels sample.1.pid sample.1.tid sample.1.threadName).2 inputs :=
    ⟨h₂, by rw [(hg₁.trans hg₂).sample]; exact h.samples.imp fun _ _ hs => hs.mono hc⟩
  obtain ⟨hadd, hca⟩ := addSample_spec hw sample.1.stack sample.2
    (List.rel_append (hl₁.imp fun _ _ hf => hf.mono hg₂.strings) hl₂)
  exact ⟨hadd, hc.trans hca⟩

theorem addAttributed_all (labels : List (String × String)) :
    ∀ (samples : List (AttributedStack × List ℤ)) {b : ProfileBuilder} {inputs : List SampleInput}, Writing b inputs →
      Writing (samples.foldl (addAttributed labels) b) (inputs ++ samples.map (attributedInput labels)) ∧
        Continues b (samples.foldl (addAttributed labels) b)
  | [], b, inputs, h => by
    rw [List.map_nil, List.append_nil]
    exact ⟨h, Continues.refl b⟩
  | sample :: samples, b, inputs, h => by
    obtain ⟨hw, hc⟩ := addAttributed_spec h labels sample
    obtain ⟨hw', hc'⟩ := addAttributed_all labels samples hw
    rw [List.append_assoc, List.singleton_append] at hw'
    exact ⟨hw', hc.trans hc'⟩

/-- The labels were interned before the first sample. -/
theorem addSample_all {labels : List (String × String)} {ls : List Label} :
    ∀ (samples : List (Stack × List ℤ)) {b : ProfileBuilder} {inputs : List SampleInput}, Writing b inputs →
      List.Forall₂ (LabelFits b.strings) (targetLabels labels) ls →
      Writing (samples.foldl (fun self sample => self.addSample sample.1 sample.2 ls) b)
          (inputs ++ samples.map (labelledInput labels)) ∧
        Continues b (samples.foldl (fun self sample => self.addSample sample.1 sample.2 ls) b)
  | [], b, inputs, h, _ => by
    rw [List.map_nil, List.append_nil]
    exact ⟨h, Continues.refl b⟩
  | sample :: samples, b, inputs, h, hl => by
    obtain ⟨hw, hc⟩ := addSample_spec h sample.1 sample.2 hl
    obtain ⟨hw', hc'⟩ := addSample_all samples hw (hl.imp fun _ _ hf => hf.mono hc.strings)
    rw [List.append_assoc, List.singleton_append] at hw'
    exact ⟨hw', hc.trans hc'⟩

theorem addSamples_spec (h : Writing b inputs) (samples : ProfileSamples) :
    Writing (b.addSamples samples) (inputs ++ samples.inputs) ∧ Continues b (b.addSamples samples) := by
  cases samples with
  | attributed labels samples => exact addAttributed_all labels samples h
  | labelled labels samples =>
    obtain ⟨h₁, hg, hl⟩ := sampleLabels_spec h.located labels
    have hsamples := h.samples.imp fun _ _ hs => hs.mono hg.continues
    rw [← hg.sample] at hsamples
    obtain ⟨hw, hc⟩ := addSample_all samples ⟨h₁, hsamples⟩ hl
    exact ⟨hw, hg.continues.trans hc⟩

theorem located_new (symbolizer : Option Symbolizer) (timeNanos durationNanos : ℤ) :
    Located (new symbolizer timeNanos durationNanos) := by
  have hstrings := (interned_empty : Interned (∅ : Table String ℕ) ([] : List String) 0 fun k _ e => e = k).push
    (k := "") (e := "") rfl rfl
  refine ⟨⟨hstrings, rfl, interned_empty, interned_empty, interned_empty, nofun, nofun, ?_⟩, rfl, rfl⟩
  intro info id m hl
  exact absurd hl (by simp [new])

theorem start_spec (h : Writing b []) (header : ProfileHeader) :
    Writing (b.start header) [] ∧ HeadingFits (b.start header).strings header (b.start header).profile ∧
      (b.start header).symbolizer = b.symbolizer ∧ (b.start header).profile.timeNanos = b.profile.timeNanos ∧
      (b.start header).profile.durationNanos = b.profile.durationNanos := by
  obtain ⟨h₁, hg₁, htypes⟩ := traverse_spec (fun he hv => hv.mono he) (fun b kind hb => valueType_spec hb kind)
    h.located header.sampleTypes
  obtain ⟨h₂, hg₂, hperiod⟩ := traverse_spec (fun he hv => hv.mono he) (fun b kind hb => valueType_spec hb kind)
    h₁ header.periodType.toList
  obtain ⟨h₃, hg₃, hdefault⟩ := intern_located h₂ header.defaultSampleType
  obtain ⟨h₄, hg₄, hcomments⟩ := traverse_spec (R := fun s comment index => s.lookup comment = some index)
    (fun he hl => he _ _ hl) (fun b comment hb => intern_located hb comment) h₃ header.comments
  unfold start
  dsimp only
  generalize mapState valueType b header.sampleTypes = r₁ at *
  generalize mapState valueType r₁.2 header.periodType.toList = r₂ at *
  generalize r₂.2.intern header.defaultSampleType = r₃ at *
  generalize mapState intern r₃.2 header.comments = r₄ at *
  have hg := ((hg₁.trans hg₂).trans hg₃).trans hg₄
  have hsample : r₄.2.profile.sample = [] := by
    rw [hg.sample]
    exact List.forall₂_nil_left_iff.mp h.samples
  have hafter : ∀ {kind v}, ValueTypeFits r₂.2.strings kind v → ValueTypeFits r₄.2.strings kind v := fun hv =>
    hv.mono (hg₃.trans hg₄).strings
  have houtline := hg.outline
  refine ⟨⟨located_withProfile h₄ rfl rfl rfl rfl, ?_⟩, ⟨?_, ?_, rfl, ?_, hcomments⟩, hg.symbolizer, ?_, ?_⟩
  · change List.Forall₂ _ [] r₄.2.profile.sample
    rw [hsample]
    exact List.Forall₂.nil
  · exact htypes.imp fun _ _ hv => hafter (hv.mono hg₂.strings)
  · exact (forall₂_head? hperiod).imp fun _ _ hv => hafter hv
  · exact hg₄.strings _ _ hdefault
  · change r₄.2.profile.outline.timeNanos = b.profile.outline.timeNanos
    rw [houtline]
  · change r₄.2.profile.outline.durationNanos = b.profile.outline.durationNanos
    rw [houtline]

end ProfileBuilder

def ProfileRequest.resolve (self : ProfileRequest) (address : UInt64) : ResolvedLocation :=
  match self.symbolizer with
  | some symbolizer => symbolizer.resolve address
  | none => { address := address, mapping := none, lines := [] }

/-- **The builder at the end** has been given the request's heading and samples. -/
theorem ProfileRequest.builder_spec (request : ProfileRequest) :
    Writing request.builder request.samples.inputs ∧
      HeadingFits request.builder.strings request.header request.builder.profile ∧
      request.builder.resolve = request.resolve ∧ request.builder.profile.timeNanos = request.timeNanos ∧
      request.builder.profile.durationNanos = request.durationNanos := by
  have hnew : Writing (ProfileBuilder.new request.symbolizer request.timeNanos request.durationNanos) [] :=
    ⟨ProfileBuilder.located_new _ _ _, List.Forall₂.nil⟩
  obtain ⟨hstart, hheading, hsymbolizer, htime, hduration⟩ := ProfileBuilder.start_spec hnew request.header
  obtain ⟨hw, hc⟩ := ProfileBuilder.addSamples_spec hstart request.samples
  have hkeep := hc.heading
  refine ⟨hw, hheading.mono hc.strings hkeep, ?_, ?_, ?_⟩
  · funext address
    unfold ProfileBuilder.resolve ProfileRequest.resolve
    change (match (ProfileBuilder.addSamples _ request.samples).symbolizer with
      | some symbolizer => symbolizer.resolve address
      | none => _) = _
    rw [hc.symbolizer, hsymbolizer]
    rfl
  · change request.builder.profile.heading.timeNanos = _
    exact (congrArg Profile.timeNanos hkeep).trans htime
  · change request.builder.profile.heading.durationNanos = _
    exact (congrArg Profile.durationNanos hkeep).trans hduration

end RustProfile
