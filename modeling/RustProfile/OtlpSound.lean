import RustProfile.Otlp
import RustProfile.Lib.Rendering
import Mathlib.Data.List.ReduceOption

/-!
# The dictionary of a request

Every index that the dictionary hands out keeps its meaning while other profiles
are encoded. `Built` is what holds between its calls: an entry is what its key
asks for, and a mapping has the flags of the mapping that was met first with its
key.
-/

namespace RustProfile

namespace Otlp

open Interning DictionaryBuilder

/-! ## What the entries stand for -/

abbrev Attribute := String × AnyValue × String

def Renders : AnyValue → String → String → Prop
  | .string value, unit, cacheKey => unit = "" ∧ cacheKey = "s:" ++ value
  | .bool value, unit, cacheKey => unit = "" ∧ cacheKey = "b:" ++ toString value
  | .int value, unit, cacheKey => cacheKey = "i:" ++ toString value ++ ":" ++ unit
  | .intArray _, _, _ => False

theorem append_left_inj {a s t : String} (h : a ++ s = a ++ t) : s = t := by
  have hlist := congrArg String.toList h
  rw [String.toList_append, String.toList_append, List.append_cancel_left_eq] at hlist
  exact String.toList_inj.mp hlist

def tag : AnyValue → Char
  | .string _ => 's'
  | .bool _ => 'b'
  | .int _ => 'i'
  | .intArray _ => 'i'

theorem Renders.head {v : AnyValue} {u c : String} (h : Renders v u c) : c.toList.head? = some (tag v) := by
  cases v with
  | string s =>
    rw [h.2, String.toList_append]
    rfl
  | bool b =>
    rw [h.2, String.toList_append]
    rfl
  | int n =>
    rw [show c = _ from h, String.append_assoc, String.append_assoc, String.toList_append]
    rfl
  | intArray _ => exact h.elim

/-- **No two attributes share a cache key.** -/
theorem Renders.injective {v v' : AnyValue} {u u' c : String} (h : Renders v u c) (h' : Renders v' u' c) :
    v = v' ∧ u = u' := by
  have htag : tag v = tag v' := Option.some.inj (h.head.symm.trans h'.head)
  cases v with
  | string s =>
    cases v' with
    | string s' =>
      obtain ⟨rfl, hc⟩ := h
      obtain ⟨rfl, hc'⟩ := h'
      rw [append_left_inj (hc.symm.trans hc')]
      exact ⟨rfl, rfl⟩
    | bool _ => exact absurd htag (by simp [tag])
    | int _ => exact absurd htag (by simp [tag])
    | intArray _ => exact h'.elim
  | bool b =>
    cases v' with
    | string _ => exact absurd htag (by simp [tag])
    | bool b' =>
      obtain ⟨rfl, hc⟩ := h
      obtain ⟨rfl, hc'⟩ := h'
      have hb : toString b = toString b' := append_left_inj (hc.symm.trans hc')
      revert hb
      cases b <;> cases b' <;> decide
    | int _ => exact absurd htag (by simp [tag])
    | intArray _ => exact h'.elim
  | int n =>
    cases v' with
    | string _ => exact absurd htag (by simp [tag])
    | bool _ => exact absurd htag (by simp [tag])
    | int n' =>
      have hc : "i:" ++ toString n ++ ":" ++ u = "i:" ++ toString n' ++ ":" ++ u' := Eq.trans (Eq.symm h) h'
      simp only [String.append_assoc] at hc
      -- The digits end at the colon, so the unit is the rest.
      obtain ⟨rfl, rfl⟩ := Rendering.toString_colon_injective (by
        simp only [String.append_assoc]
        exact append_left_inj hc)
      exact ⟨rfl, rfl⟩
    | intArray _ => exact h'.elim
  | intArray _ => exact h.elim

def AttributeAt (attributes : Table (String × String) ℕ) (a : Attribute) (i : ℕ) : Prop :=
  ∃ cacheKey, Renders a.2.1 a.2.2 cacheKey ∧ attributes.lookup (a.1, cacheKey) = some i

/-- A source profile and a location of it that a sample has. -/
abbrev Met := RustProfile.Profile × RustProfile.Location

def Met.mapping (x : Met) : Option RustProfile.Mapping := (SourceLookup.new x.1).mappings.lookup x.2.mappingId

/-- The mapping that was met first with the key. -/
def firstMapping (met : List Met) (key : MappingKey) : Option RustProfile.Mapping :=
  met.findSome? fun x => x.mapping.filter fun m => mappingKey x.1 m = key

/-- The attributes of a mapping that are not flags. -/
def buildIdKeys : List String := ["process.executable.build_id.gnu", "process.executable.build_id.htlhash"]

def BuildIdAt (attributes : Table (String × String) ℕ) (i : ℕ) : Prop :=
  ∃ key ∈ buildIdKeys, ∃ value, AttributeAt attributes (key, .string value, "") i

section
variable (strings : Table String ℕ)

structure AttributeFits (key : String × String) (i : ℕ) (e : KeyValueAndUnit) : Prop where
  keyString : strings.lookup key.1 = some e.keyStrindex
  value : ∃ value unit, e.value = some value ∧ strings.lookup unit = some e.unitStrindex ∧ Renders value unit key.2

structure FunctionFits (key : FunctionKey) (i : ℕ) (e : Function) : Prop where
  name : strings.lookup key.1 = some e.nameStrindex
  systemName : strings.lookup key.2.1 = some e.systemNameStrindex
  filename : strings.lookup key.2.2.1 = some e.filenameStrindex
  startLine : e.startLine = key.2.2.2

structure MappingFits (attributes : Table (String × String) ℕ) (met : List Met) (key : MappingKey) (i : ℕ)
    (e : Mapping) : Prop where
  start : e.memoryStart = key.1
  limit : e.memoryLimit = key.2.1
  offset : e.fileOffset = key.2.2.1
  filename : strings.lookup key.2.2.2.1 = some e.filenameStrindex
  attributes : ∃ m ids flags, firstMapping met key = some m ∧ e.attributeIndices = ids ++ flags ∧
    (∀ i ∈ ids, BuildIdAt attributes i) ∧
    List.Forall₂ (fun flag i => AttributeAt attributes (flag.1, .bool flag.2, "") i) (mappingFlags m) flags

end

structure LineFits (functions : Table FunctionKey ℕ) (source : RustProfile.Profile) (l : RustProfile.Line)
    (e : ℕ × ℤ × ℤ) : Prop where
  known : ∀ f, (SourceLookup.new source).functions.lookup l.functionId = some f →
    functions.lookup (functionKey source f) = some e.1
  unknown : (SourceLookup.new source).functions.lookup l.functionId = none → e.1 = 0
  line : e.2.1 = l.line
  column : e.2.2 = l.column

structure KeyFits (d : DictionaryBuilder) (x : Met) (key : LocationKey) : Prop where
  atAddress : key.1 = x.2.address
  mapped : ∀ m, x.mapping = some m → d.mappingIndex.lookup (mappingKey x.1 m) = some key.2.1
  unmapped : x.mapping = none → key.2.1 = 0
  lines : List.Forall₂ (LineFits d.functionIndex x.1) x.2.line key.2.2

structure LocationFits (d : DictionaryBuilder) (met : List Met) (key : LocationKey) (i : ℕ) (e : Location) : Prop where
  sameKey : locationKey e.address e.mappingIndex e.lines = key
  attributes : ∀ i ∈ e.attributeIndices, ∃ a, AttributeAt d.attributeIndex a i
  origin : ∃ x ∈ met, KeyFits d x key

structure StackFits (locations : Table LocationKey ℕ) (key : List ℕ) (i : ℕ) (e : Stack) : Prop where
  sameKey : e.locationIndices = key
  locations : ∀ i ∈ key, ∃ k, locations.lookup k = some i

/-- The tables after the mappings of `met` have been interned. -/
structure Built (d : DictionaryBuilder) (met : List Met) : Prop where
  strings : Interned d.stringIndex d.strings 0 fun k _ e => e = k
  blank : d.stringIndex.lookup "" = some 0
  attributes : Reserved d.attributeIndex d.attributes {} (AttributeFits d.stringIndex)
  functions : Reserved d.functionIndex d.functions {} (FunctionFits d.stringIndex)
  mappings : Reserved d.mappingIndex d.mappings {} (MappingFits d.stringIndex d.attributeIndex met)
  locations : Reserved d.locationIndex d.locations {} (LocationFits d met)
  stackEntries : Reserved d.stackIndex d.stackEntries {} (StackFits d.locationIndex)
  known : ∀ x ∈ met, ∀ m, x.mapping = some m → mappingKey x.1 m ∈ d.mappingIndex

/-! ## Growth -/

/-- Every index keeps its meaning. -/
structure Grows (a b : DictionaryBuilder) : Prop where
  strings : Extends a.stringIndex b.stringIndex
  attributes : Extends a.attributeIndex b.attributeIndex
  functions : Extends a.functionIndex b.functionIndex
  mappings : Extends a.mappingIndex b.mappingIndex
  locations : Extends a.locationIndex b.locationIndex
  stackEntries : Extends a.stackIndex b.stackIndex

theorem Grows.refl (a : DictionaryBuilder) : Grows a a :=
  ⟨Extends.refl _, Extends.refl _, Extends.refl _, Extends.refl _, Extends.refl _, Extends.refl _⟩

theorem Grows.trans {a b c : DictionaryBuilder} (hab : Grows a b) (hbc : Grows b c) : Grows a c :=
  ⟨hab.strings.trans hbc.strings, hab.attributes.trans hbc.attributes, hab.functions.trans hbc.functions,
    hab.mappings.trans hbc.mappings, hab.locations.trans hbc.locations, hab.stackEntries.trans hbc.stackEntries⟩

theorem AttributeAt.mono {s t : Table (String × String) ℕ} (h : Extends s t) {a : Attribute} {i : ℕ}
    (ha : AttributeAt s a i) : AttributeAt t a i := by
  obtain ⟨cacheKey, hr, hl⟩ := ha
  exact ⟨cacheKey, hr, h _ _ hl⟩

theorem BuildIdAt.mono {s t : Table (String × String) ℕ} (h : Extends s t) {i : ℕ} (hi : BuildIdAt s i) :
    BuildIdAt t i := by
  obtain ⟨key, hkey, value, ha⟩ := hi
  exact ⟨key, hkey, value, ha.mono h⟩

section
variable {s t : Table String ℕ} (h : Extends s t)

include h

theorem AttributeFits.mono {key : String × String} {i : ℕ} {e : KeyValueAndUnit} (he : AttributeFits s key i e) :
    AttributeFits t key i e := by
  obtain ⟨hkey, value, unit, hv, hu, hr⟩ := he
  exact ⟨h _ _ hkey, value, unit, hv, h _ _ hu, hr⟩

theorem FunctionFits.mono {key : FunctionKey} {i : ℕ} {e : Function} (he : FunctionFits s key i e) :
    FunctionFits t key i e :=
  ⟨h _ _ he.name, h _ _ he.systemName, h _ _ he.filename, he.startLine⟩

theorem MappingFits.mono {a b : Table (String × String) ℕ} (hab : Extends a b) {met : List Met} {key : MappingKey}
    {i : ℕ} {e : Mapping} (he : MappingFits s a met key i e) : MappingFits t b met key i e := by
  obtain ⟨m, ids, flags, hm, hi, hids, hflags⟩ := he.attributes
  exact ⟨he.start, he.limit, he.offset, h _ _ he.filename, m, ids, flags, hm, hi, fun i hi => (hids i hi).mono hab,
    hflags.imp fun _ _ hf => hf.mono hab⟩

end

theorem LineFits.mono {s t : Table FunctionKey ℕ} (h : Extends s t) {source : RustProfile.Profile}
    {l : RustProfile.Line} {e : ℕ × ℤ × ℤ} (hl : LineFits s source l e) : LineFits t source l e :=
  ⟨fun f hf => h _ _ (hl.known f hf), hl.unknown, hl.line, hl.column⟩

theorem KeyFits.mono {a b : DictionaryBuilder} (h : Grows a b) {x : Met} {key : LocationKey} (hk : KeyFits a x key) :
    KeyFits b x key :=
  ⟨hk.atAddress, fun m hm => h.mappings _ _ (hk.mapped m hm), hk.unmapped, hk.lines.imp fun _ _ hl =>
    hl.mono h.functions⟩

theorem LocationFits.mono {a b : DictionaryBuilder} (h : Grows a b) {met : List Met} {key : LocationKey} {i : ℕ}
    {e : Location} (he : LocationFits a met key i e) : LocationFits b met key i e := by
  obtain ⟨x, hx, hk⟩ := he.origin
  refine ⟨he.sameKey, fun i hi => ?_, x, hx, hk.mono h⟩
  obtain ⟨a, ha⟩ := he.attributes i hi
  exact ⟨a, ha.mono h.attributes⟩

theorem StackFits.mono {s t : Table LocationKey ℕ} (h : Extends s t) {key : List ℕ} {i : ℕ} {e : Stack}
    (he : StackFits s key i e) : StackFits t key i e := by
  refine ⟨he.sameKey, fun i hi => ?_⟩
  obtain ⟨k, hk⟩ := he.locations i hi
  exact ⟨k, h _ _ hk⟩

/-! ## Strings and attributes -/

/-- Only strings and attributes have been added, and files hashed. -/
structure Quiet (a b : DictionaryBuilder) : Prop where
  strings : Extends a.stringIndex b.stringIndex
  attributes : Extends a.attributeIndex b.attributeIndex
  rest : b = { a with hashed := b.hashed, strings := b.strings, stringIndex := b.stringIndex,
                      attributes := b.attributes, attributeIndex := b.attributeIndex }

theorem Quiet.refl (a : DictionaryBuilder) : Quiet a a := ⟨Extends.refl _, Extends.refl _, rfl⟩

theorem Quiet.trans {a b c : DictionaryBuilder} (hab : Quiet a b) (hbc : Quiet b c) : Quiet a c := by
  refine ⟨hab.strings.trans hbc.strings, hab.attributes.trans hbc.attributes, ?_⟩
  have h := hbc.rest
  rw [hab.rest] at h
  exact h

section
variable {a b : DictionaryBuilder} (h : Quiet a b)

include h

theorem Quiet.functionIndex : b.functionIndex = a.functionIndex := by rw [h.rest]
theorem Quiet.functions : b.functions = a.functions := by rw [h.rest]
theorem Quiet.mappingIndex : b.mappingIndex = a.mappingIndex := by rw [h.rest]
theorem Quiet.mappings : b.mappings = a.mappings := by rw [h.rest]
theorem Quiet.locationIndex : b.locationIndex = a.locationIndex := by rw [h.rest]
theorem Quiet.locations : b.locations = a.locations := by rw [h.rest]
theorem Quiet.stackIndex : b.stackIndex = a.stackIndex := by rw [h.rest]
theorem Quiet.stackEntries : b.stackEntries = a.stackEntries := by rw [h.rest]

theorem Quiet.grows : Grows a b :=
  ⟨h.strings, h.attributes, h.functionIndex ▸ Extends.refl _, h.mappingIndex ▸ Extends.refl _,
    h.locationIndex ▸ Extends.refl _, h.stackIndex ▸ Extends.refl _⟩

theorem Built.quiet {met : List Met} (hb : Built a met)
    (hstrings : Interned b.stringIndex b.strings 0 fun k _ e => e = k)
    (hattributes : Reserved b.attributeIndex b.attributes {} (AttributeFits b.stringIndex)) : Built b met := by
  refine ⟨hstrings, h.strings _ _ hb.blank, hattributes, ?_, ?_, ?_, ?_, ?_⟩
  · rw [h.functionIndex, h.functions]
    exact hb.functions.mono fun _ _ _ hf => hf.mono h.strings
  · rw [h.mappingIndex, h.mappings]
    exact hb.mappings.mono fun _ _ _ hm => hm.mono h.strings h.attributes
  · rw [h.locationIndex, h.locations]
    exact hb.locations.mono fun _ _ _ hl => hl.mono h.grows
  · rw [h.stackIndex, h.stackEntries, h.locationIndex]
    exact hb.stackEntries
  · rw [h.mappingIndex]
    exact hb.known

end

namespace DictionaryBuilder

variable {d : DictionaryBuilder} {met : List Met}

theorem internString_spec (h : Built d met) (value : String) :
    Built (d.internString value).2 met ∧ Quiet d (d.internString value).2 ∧
      (d.internString value).2.attributes = d.attributes ∧
      (d.internString value).2.attributeIndex = d.attributeIndex ∧
      (d.internString value).2.stringIndex.lookup value = some (d.internString value).1 := by
  unfold internString
  cases hl : d.stringIndex.lookup value with
  | some index => exact ⟨h, Quiet.refl d, rfl, rfl, hl⟩
  | none =>
    have hext := extends_insert hl d.strings.length
    have hstrings := h.strings.push hl (e := value) rfl
    rw [Nat.zero_add] at hstrings
    have hq : Quiet d { d with
        strings := d.strings ++ [value], stringIndex := d.stringIndex.insert value d.strings.length } :=
      ⟨hext, Extends.refl _, rfl⟩
    refine ⟨h.quiet hq hstrings (h.attributes.mono fun _ _ _ ha => ha.mono hext), hq, rfl, rfl, ?_⟩
    simp only [Table.lookup_insert, if_true]

theorem internUnit_spec (h : Built d met) (unit : Option String) :
    let r := d.internUnit unit
    Built r.2 met ∧ Quiet d r.2 ∧ r.2.attributes = d.attributes ∧ r.2.attributeIndex = d.attributeIndex ∧
      r.2.stringIndex.lookup (unit.getD "") = some r.1 := by
  cases unit with
  | some unit => exact internString_spec h unit
  | none => exact ⟨h, Quiet.refl d, rfl, rfl, h.blank⟩

theorem internAttribute_spec (h : Built d met) {key cacheKey : String} {value : AnyValue} {unit : Option String}
    (hr : Renders value (unit.getD "") cacheKey) :
    let r := d.internAttribute key cacheKey value unit
    Built r.2 met ∧ Quiet d r.2 ∧ AttributeAt r.2.attributeIndex (key, value, unit.getD "") r.1 := by
  unfold internAttribute
  cases hl : d.attributeIndex.lookup (key, cacheKey) with
  | some index => exact ⟨h, Quiet.refl d, cacheKey, hr, hl⟩
  | none =>
    obtain ⟨h₁, hq₁, ha₁, hi₁, hkey⟩ := internString_spec h key
    obtain ⟨h₂, hq₂, ha₂, hi₂, hunit⟩ := internUnit_spec h₁ unit
    dsimp only at h₂ hq₂ ha₂ hi₂ hunit ⊢
    generalize d.internString key = r₁ at *
    generalize r₁.2.internUnit unit = r₂ at *
    have hl₂ : r₂.2.attributeIndex.lookup (key, cacheKey) = none := by rw [hi₂, hi₁, hl]
    have hext := extends_insert hl₂ r₂.2.attributes.length
    have hfits : AttributeFits r₂.2.stringIndex (key, cacheKey) r₂.2.attributes.length
        { keyStrindex := r₁.1, value := some value, unitStrindex := r₂.1 } :=
      ⟨hq₂.strings _ _ hkey, value, unit.getD "", rfl, hunit, hr⟩
    have hq : Quiet r₂.2 { r₂.2 with
        attributes := r₂.2.attributes ++ [{ keyStrindex := r₁.1, value := some value, unitStrindex := r₂.1 }]
        attributeIndex := r₂.2.attributeIndex.insert (key, cacheKey) r₂.2.attributes.length } :=
      ⟨Extends.refl _, hext, rfl⟩
    refine ⟨h₂.quiet hq h₂.strings (h₂.attributes.push hl₂ hfits), (hq₁.trans hq₂).trans hq, cacheKey, hr, ?_⟩
    simp only [Table.lookup_insert, if_true]

theorem internAttributeString_spec (h : Built d met) (key value : String) :
    let r := d.internAttributeString key value
    Built r.2 met ∧ Quiet d r.2 ∧ AttributeAt r.2.attributeIndex (key, .string value, "") r.1 :=
  @internAttribute_spec d met h key _ (.string value) none ⟨rfl, rfl⟩

theorem internAttributeBool_spec (h : Built d met) (key : String) (value : Bool) :
    let r := d.internAttributeBool key value
    Built r.2 met ∧ Quiet d r.2 ∧ AttributeAt r.2.attributeIndex (key, .bool value, "") r.1 :=
  @internAttribute_spec d met h key _ (.bool value) none ⟨rfl, rfl⟩

theorem internAttributeI64_spec (h : Built d met) (key : String) (value : ℤ) (unit : String) :
    let r := d.internAttributeI64 key value unit
    Built r.2 met ∧ Quiet d r.2 ∧ AttributeAt r.2.attributeIndex (key, .int value, unit) r.1 :=
  @internAttribute_spec d met h key _ (.int value) (some unit) rfl

end DictionaryBuilder

/-- The attribute that a label becomes; a label without a key becomes none. -/
def labelAttribute (source : RustProfile.Profile) (label : RustProfile.Label) : Option Attribute :=
  let key := pprofString source label.key
  if key = "" then none
  else if label.str ≠ 0 then some (key, .string (pprofString source label.str), "")
  else some (key, .int label.num, pprofString source label.numUnit)

def attributesOf (source : RustProfile.Profile) (sample : RustProfile.Sample) : List Attribute :=
  sample.label.filterMap (labelAttribute source)

namespace DictionaryBuilder

variable {d : DictionaryBuilder} {met : List Met}

theorem internPprofLabel_spec (h : Built d met) (source : RustProfile.Profile) (label : RustProfile.Label) :
    let r := internPprofLabel source d label
    Built r.2 met ∧ Quiet d r.2 ∧ Option.Rel (AttributeAt r.2.attributeIndex) (labelAttribute source label) r.1 := by
  unfold internPprofLabel labelAttribute
  by_cases hkey : pprofString source label.key = ""
  · simp only [if_pos hkey]
    exact ⟨h, Quiet.refl d, Option.Rel.none⟩
  · simp only [if_neg hkey]
    by_cases hstr : label.str ≠ 0
    · simp only [if_pos hstr]
      obtain ⟨hb, hq, ha⟩ := internAttributeString_spec h (pprofString source label.key) (pprofString source label.str)
      exact ⟨hb, hq, Option.Rel.some ha⟩
    · simp only [if_neg hstr]
      obtain ⟨hb, hq, ha⟩ := internAttributeI64_spec h (pprofString source label.key) label.num
        (pprofString source label.numUnit)
      exact ⟨hb, hq, Option.Rel.some ha⟩

theorem rel_mono {α β : Type} {R R' : α → β → Prop} (hR : ∀ a b, R a b → R' a b) {a : Option α} {b : Option β}
    (h : Option.Rel R a b) : Option.Rel R' a b := by
  cases h with
  | some h => exact Option.Rel.some (hR _ _ h)
  | none => exact Option.Rel.none

theorem forall₂_reduceOption {α β γ : Type} {R : β → γ → Prop} {f : α → Option β} {as : List α} {cs : List (Option γ)}
    (h : List.Forall₂ (fun a c => Option.Rel R (f a) c) as cs) : List.Forall₂ R (as.filterMap f) cs.reduceOption := by
  induction h with
  | nil => exact List.Forall₂.nil
  | @cons a c as cs hac _ ih =>
    rw [List.filterMap_cons]
    cases hf : f a with
    | none =>
      rw [hf] at hac
      cases hac
      rw [List.reduceOption_cons_of_none]
      exact ih
    | some b =>
      rw [hf] at hac
      cases hac with
      | some hbc =>
        rw [List.reduceOption_cons_of_some]
        exact List.Forall₂.cons hbc ih

theorem sampleAttributes_spec (h : Built d met) (source : RustProfile.Profile) (sample : RustProfile.Sample) :
    let r := sampleAttributes source d sample
    Built r.2 met ∧ Quiet d r.2 ∧ List.Forall₂ (AttributeAt r.2.attributeIndex) (attributesOf source sample) r.1 := by
  obtain ⟨hb, hq, hf⟩ := @mapState_spec DictionaryBuilder RustProfile.Label (Option ℕ) (internPprofLabel source)
    (Built · met) Quiet (fun d label => Option.Rel (AttributeAt d.attributeIndex) (labelAttribute source label))
    Quiet.refl Quiet.trans (fun hq hr => rel_mono (fun _ _ ha => ha.mono hq.attributes) hr) sample.label
    (fun d label _ hd => internPprofLabel_spec hd source label) d h
  exact ⟨hb, hq, forall₂_reduceOption hf⟩

end DictionaryBuilder

/-! ## Mappings and functions -/

theorem firstMapping_snoc (met : List Met) (x : Met) (key : MappingKey) :
    firstMapping (met ++ [x]) key = (firstMapping met key).or (x.mapping.filter fun m => mappingKey x.1 m = key) := by
  unfold firstMapping
  rw [List.findSome?_append, List.findSome?_singleton]

theorem firstMapping_mono {met : List Met} {key : MappingKey} {m : RustProfile.Mapping}
    (h : firstMapping met key = some m) (x : Met) : firstMapping (met ++ [x]) key = some m := by
  rw [firstMapping_snoc, h, Option.some_or]

theorem MappingFits.snoc {s : Table String ℕ} {a : Table (String × String) ℕ} {met : List Met} {key : MappingKey}
    {i : ℕ} {e : Mapping} (he : MappingFits s a met key i e) (x : Met) : MappingFits s a (met ++ [x]) key i e := by
  obtain ⟨m, ids, flags, hm, hrest⟩ := he.attributes
  exact ⟨he.start, he.limit, he.offset, he.filename, m, ids, flags, firstMapping_mono hm x, hrest⟩

theorem LocationFits.snoc {d : DictionaryBuilder} {met : List Met} {key : LocationKey} {i : ℕ} {e : Location}
    (he : LocationFits d met key i e) (x : Met) : LocationFits d (met ++ [x]) key i e := by
  obtain ⟨y, hy, hk⟩ := he.origin
  exact ⟨he.sameKey, he.attributes, y, List.mem_append_left _ hy, hk⟩

theorem Built.snoc {d : DictionaryBuilder} {met : List Met} (h : Built d met) {x : Met}
    (hx : ∀ m, x.mapping = some m → mappingKey x.1 m ∈ d.mappingIndex) : Built d (met ++ [x]) := by
  refine ⟨h.strings, h.blank, h.attributes, h.functions, h.mappings.mono fun _ _ _ hm => hm.snoc x,
    h.locations.mono fun _ _ _ hl => hl.snoc x, h.stackEntries, ?_⟩
  intro y hy
  rcases List.mem_append.mp hy with hy | hy
  · exact h.known y hy
  · rw [List.mem_singleton.mp hy]
    exact hx

theorem Built.firstMapping_none {d : DictionaryBuilder} {met : List Met} (h : Built d met) {key : MappingKey}
    (hk : d.mappingIndex.lookup key = none) : firstMapping met key = none := by
  unfold firstMapping
  rw [List.findSome?_eq_none_iff]
  intro x hx
  rw [Option.filter_eq_none_iff]
  intro m hm
  rw [decide_eq_true_eq]
  rintro rfl
  exact Table.notMem_iff.mpr hk (h.known x hx m hm)

namespace DictionaryBuilder

variable {d : DictionaryBuilder} {met : List Met}

theorem internOptional_spec (h : Built d met) {key : String} (hkey : key ∈ buildIdKeys) (value : Option String) :
    let r := d.internOptional key value
    Built r.2 met ∧ Quiet d r.2 ∧ ∀ i ∈ r.1, BuildIdAt r.2.attributeIndex i := by
  cases value with
  | none => exact ⟨h, Quiet.refl d, fun i hi => (List.not_mem_nil hi).elim⟩
  | some value =>
    obtain ⟨hb, hq, ha⟩ := internAttributeString_spec h key value
    refine ⟨hb, hq, fun i hi => ?_⟩
    rw [List.mem_singleton.mp hi]
    exact ⟨key, hkey, value, ha⟩

theorem hashMapping_quiet (d : DictionaryBuilder) (start limit : UInt64) : Quiet d (d.hashMapping start limit).2 :=
  ⟨Extends.refl _, Extends.refl _, rfl⟩

theorem internFlags_spec (h : Built d met) (flags : List (String × Bool)) :
    let r := mapState (fun self (flag : String × Bool) => self.internAttributeBool flag.1 flag.2) d flags
    Built r.2 met ∧ Quiet d r.2 ∧
      List.Forall₂ (fun flag i => AttributeAt r.2.attributeIndex (flag.1, .bool flag.2, "") i) flags r.1 :=
  @mapState_spec DictionaryBuilder (String × Bool) ℕ _ (Built · met) Quiet
    (fun d flag i => AttributeAt d.attributeIndex (flag.1, .bool flag.2, "") i) Quiet.refl Quiet.trans
    (fun hq ha => ha.mono hq.attributes) flags (fun _ flag _ hd => internAttributeBool_spec hd flag.1 flag.2) d h

def newMapping (m : RustProfile.Mapping) (filename : ℕ) (attributes : List ℕ) : Mapping where
  memoryStart := m.memoryStart
  memoryLimit := m.memoryLimit
  fileOffset := m.fileOffset
  filenameStrindex := filename
  attributeIndices := attributes

theorem pushMapping_spec (h : Built d met) {x : Met} {m : RustProfile.Mapping} (hx : x.mapping = some m)
    (hnew : d.mappingIndex.lookup (mappingKey x.1 m) = none) {filename : ℕ} {ids flags : List ℕ}
    (hfilename : d.stringIndex.lookup (pprofString x.1 m.filename) = some filename)
    (hids : ∀ i ∈ ids, BuildIdAt d.attributeIndex i)
    (hflags : List.Forall₂ (fun flag i => AttributeAt d.attributeIndex (flag.1, .bool flag.2, "") i) (mappingFlags m)
      flags) :
    Built { d with
      mappings := d.mappings ++ [newMapping m filename (ids ++ flags)]
      mappingIndex := d.mappingIndex.insert (mappingKey x.1 m) d.mappings.length } (met ++ [x]) := by
  have hext := extends_insert hnew d.mappings.length
  have hgrows : Grows d { d with
      mappings := d.mappings ++ [newMapping m filename (ids ++ flags)]
      mappingIndex := d.mappingIndex.insert (mappingKey x.1 m) d.mappings.length } :=
    ⟨Extends.refl _, Extends.refl _, Extends.refl _, hext, Extends.refl _, Extends.refl _⟩
  have hfirst : firstMapping (met ++ [x]) (mappingKey x.1 m) = some m := by
    rw [firstMapping_snoc, h.firstMapping_none hnew, Option.none_or, hx]
    simp
  have hfits : MappingFits d.stringIndex d.attributeIndex (met ++ [x]) (mappingKey x.1 m) d.mappings.length
      (newMapping m filename (ids ++ flags)) :=
    ⟨rfl, rfl, rfl, hfilename, m, ids, flags, hfirst, rfl, hids, hflags⟩
  refine ⟨h.strings, h.blank, h.attributes, h.functions, (h.mappings.mono fun _ _ _ hm => hm.snoc x).push hnew hfits,
    h.locations.mono fun _ _ _ hl => (hl.snoc x).mono hgrows, h.stackEntries, ?_⟩
  intro y hy m' hm'
  rw [AList.mem_insert]
  rcases List.mem_append.mp hy with hy | hy
  · exact Or.inr (h.known y hy m' hm')
  · rw [List.mem_singleton.mp hy] at hm' ⊢
    rw [hx, Option.some.injEq] at hm'
    rw [hm']
    exact Or.inl rfl

theorem internMapping_spec (h : Built d met) {x : Met} {m : RustProfile.Mapping} (hx : x.mapping = some m) :
    let r := internMapping x.1 d m
    Built r.2 (met ++ [x]) ∧ Grows d r.2 ∧ r.2.mappingIndex.lookup (mappingKey x.1 m) = some r.1 := by
  unfold internMapping
  cases hl : d.mappingIndex.lookup (mappingKey x.1 m) with
  | some index =>
    refine ⟨h.snoc fun m' hm' => ?_, Grows.refl d, hl⟩
    rw [hx, Option.some.injEq] at hm'
    exact hm' ▸ Table.mem_of_lookup hl
  | none =>
    obtain ⟨buildId, hbuildId⟩ : ∃ o : Option String, o =
      if pprofString x.1 m.buildId = "" then none else some (pprofString x.1 m.buildId) := ⟨_, rfl⟩
    dsimp only
    rw [← hbuildId]
    obtain ⟨h₁, hq₁, hgnu⟩ := internOptional_spec h
      (show "process.executable.build_id.gnu" ∈ buildIdKeys by simp [buildIdKeys]) buildId
    have h₂ : Built _ met := h₁.quiet (hashMapping_quiet _ m.memoryStart m.memoryLimit) h₁.strings h₁.attributes
    have hq₂ := hashMapping_quiet (d.internOptional "process.executable.build_id.gnu" buildId).2 m.memoryStart
      m.memoryLimit
    generalize d.internOptional "process.executable.build_id.gnu" buildId = r₁ at *
    generalize r₁.2.hashMapping m.memoryStart m.memoryLimit = r₂ at *
    obtain ⟨h₃, hq₃, hhtl⟩ := internOptional_spec h₂
      (show "process.executable.build_id.htlhash" ∈ buildIdKeys by simp [buildIdKeys]) r₂.1
    generalize r₂.2.internOptional "process.executable.build_id.htlhash" r₂.1 = r₃ at *
    obtain ⟨h₄, hq₄, hflags⟩ := internFlags_spec h₃ (mappingFlags m)
    generalize mapState _ r₃.2 (mappingFlags m) = r₄ at *
    obtain ⟨h₅, hq₅, -, -, hfilename⟩ := internString_spec h₄ (pprofString x.1 m.filename)
    generalize r₄.2.internString (pprofString x.1 m.filename) = r₅ at *
    have hq := (((hq₁.trans hq₂).trans hq₃).trans hq₄).trans hq₅
    have hl₅ : r₅.2.mappingIndex.lookup (mappingKey x.1 m) = none := by rw [hq.mappingIndex, hl]
    -- Both build ids were interned before the flags and the name; what is interned stays.
    have hids : ∀ i ∈ r₁.1 ++ r₃.1, BuildIdAt r₅.2.attributeIndex i := by
      intro i hi
      rcases List.mem_append.mp hi with hi | hi
      · exact (hgnu i hi).mono (((hq₂.trans hq₃).trans hq₄).trans hq₅).attributes
      · exact (hhtl i hi).mono (hq₄.trans hq₅).attributes
    have hbuilt := pushMapping_spec h₅ hx hl₅ hfilename hids (hflags.imp fun _ _ hf => hf.mono hq₅.attributes)
    refine ⟨hbuilt, hq.grows.trans ?_, ?_⟩
    · exact ⟨Extends.refl _, Extends.refl _, Extends.refl _, extends_insert hl₅ _, Extends.refl _, Extends.refl _⟩
    · simp only [Table.lookup_insert, if_true]

theorem locationMapping_spec (h : Built d met) (x : Met) :
    let r := locationMapping x.1 (SourceLookup.new x.1) d x.2.mappingId
    Built r.2 (met ++ [x]) ∧ Grows d r.2 ∧
      (∀ m, x.mapping = some m → r.2.mappingIndex.lookup (mappingKey x.1 m) = some r.1) ∧
      (x.mapping = none → r.1 = 0) := by
  unfold locationMapping
  cases hm : (SourceLookup.new x.1).mappings.lookup x.2.mappingId with
  | none =>
    have hx : x.mapping = none := hm
    refine ⟨h.snoc fun m hm' => ?_, Grows.refl d, fun m hm' => ?_, fun _ => rfl⟩
    · rw [hx] at hm'
      cases hm'
    · rw [hx] at hm'
      cases hm'
  | some m =>
    have hx : x.mapping = some m := hm
    obtain ⟨hb, hg, hl⟩ := internMapping_spec h hx
    refine ⟨hb, hg, fun m' hm' => ?_, fun hn => ?_⟩
    · rw [hx, Option.some.injEq] at hm'
      exact hm' ▸ hl
    · rw [hx] at hn
      cases hn

theorem internFunction_spec (h : Built d met) (source : RustProfile.Profile) (f : RustProfile.Function) :
    let r := internFunction source d f
    Built r.2 met ∧ Grows d r.2 ∧ r.2.functionIndex.lookup (functionKey source f) = some r.1 := by
  unfold internFunction
  dsimp only
  cases hl : d.functionIndex.lookup (functionKey source f) with
  | some index => exact ⟨h, Grows.refl d, hl⟩
  | none =>
    obtain ⟨h₁, hq₁, -, -, hname⟩ := internString_spec h (functionKey source f).1
    obtain ⟨h₂, hq₂, -, -, hsystem⟩ := internString_spec h₁ (functionKey source f).2.1
    obtain ⟨h₃, hq₃, -, -, hfile⟩ := internString_spec h₂ (functionKey source f).2.2.1
    dsimp only
    generalize d.internString (functionKey source f).1 = r₁ at *
    generalize r₁.2.internString (functionKey source f).2.1 = r₂ at *
    generalize r₂.2.internString (functionKey source f).2.2.1 = r₃ at *
    have hq := (hq₁.trans hq₂).trans hq₃
    have hl₃ : r₃.2.functionIndex.lookup (functionKey source f) = none := by rw [hq.functionIndex, hl]
    have hext := extends_insert hl₃ r₃.2.functions.length
    have hfits : FunctionFits r₃.2.stringIndex (functionKey source f) r₃.2.functions.length
        ⟨r₁.1, r₂.1, r₃.1, (functionKey source f).2.2.2⟩ :=
      ⟨hq₃.strings _ _ (hq₂.strings _ _ hname), hq₃.strings _ _ hsystem, hfile, rfl⟩
    have hgrows : Grows r₃.2 { r₃.2 with
        functions := r₃.2.functions ++ [⟨r₁.1, r₂.1, r₃.1, (functionKey source f).2.2.2⟩]
        functionIndex := r₃.2.functionIndex.insert (functionKey source f) r₃.2.functions.length } :=
      ⟨Extends.refl _, Extends.refl _, hext, Extends.refl _, Extends.refl _, Extends.refl _⟩
    refine ⟨⟨h₃.strings, h₃.blank, h₃.attributes, h₃.functions.push hl₃ hfits, h₃.mappings, ?_, h₃.stackEntries,
      h₃.known⟩, hq.grows.trans hgrows, ?_⟩
    · exact h₃.locations.mono fun _ _ _ hl => hl.mono hgrows
    · simp only [Table.lookup_insert, if_true]

theorem internLine_spec (h : Built d met) (source : RustProfile.Profile) (l : RustProfile.Line) :
    let r := internLine source (SourceLookup.new source) d l
    Built r.2 met ∧ Grows d r.2 ∧
      LineFits r.2.functionIndex source l (r.1.functionIndex, r.1.line, r.1.column) := by
  unfold internLine
  dsimp only
  cases hf : (SourceLookup.new source).functions.lookup l.functionId with
  | none =>
    refine ⟨h, Grows.refl d, fun f hf' => ?_, fun _ => rfl, rfl, rfl⟩
    rw [hf] at hf'
    cases hf'
  | some f =>
    obtain ⟨hb, hg, hl⟩ := internFunction_spec h source f
    refine ⟨hb, hg, fun f' hf' => ?_, fun hn => ?_, rfl, rfl⟩
    · rw [hf, Option.some.injEq] at hf'
      exact hf' ▸ hl
    · rw [hf] at hn
      cases hn

end DictionaryBuilder

/-! ## Locations and stacks -/

def LocationAt (d : DictionaryBuilder) (x : Met) (i : ℕ) : Prop :=
  ∃ key, d.locationIndex.lookup key = some i ∧ KeyFits d x key

def StackAt (d : DictionaryBuilder) (source : RustProfile.Profile) (locations : List RustProfile.Location) (i : ℕ) :
    Prop :=
  ∃ key, d.stackIndex.lookup key = some i ∧ List.Forall₂ (fun l i => LocationAt d (source, l) i) locations key

theorem LocationAt.mono {a b : DictionaryBuilder} (h : Grows a b) {x : Met} {i : ℕ} (hx : LocationAt a x i) :
    LocationAt b x i := by
  obtain ⟨key, hl, hk⟩ := hx
  exact ⟨key, h.locations _ _ hl, hk.mono h⟩

theorem StackAt.mono {a b : DictionaryBuilder} (h : Grows a b) {source : RustProfile.Profile}
    {locations : List RustProfile.Location} {i : ℕ} (hs : StackAt a source locations i) :
    StackAt b source locations i := by
  obtain ⟨key, hl, hk⟩ := hs
  exact ⟨key, h.stackEntries _ _ hl, hk.imp fun _ _ hx => hx.mono h⟩

structure Encoded (d : DictionaryBuilder) (met : List Met) : Prop where
  built : Built d met
  complete : ∀ x ∈ met, ∃ i, LocationAt d x i

theorem Encoded.grows {a b : DictionaryBuilder} {met : List Met} (h : Encoded a met) (hb : Built b met)
    (hg : Grows a b) : Encoded b met := by
  refine ⟨hb, fun x hx => ?_⟩
  obtain ⟨i, hi⟩ := h.complete x hx
  exact ⟨i, hi.mono hg⟩

theorem Encoded.snoc {a b : DictionaryBuilder} {met : List Met} (h : Encoded a met) {x : Met}
    (hb : Built b (met ++ [x])) (hg : Grows a b) {i : ℕ} (hx : LocationAt b x i) : Encoded b (met ++ [x]) := by
  refine ⟨hb, fun y hy => ?_⟩
  rcases List.mem_append.mp hy with hy | hy
  · obtain ⟨j, hj⟩ := h.complete y hy
    exact ⟨j, hj.mono hg⟩
  · rw [List.mem_singleton.mp hy]
    exact ⟨i, hx⟩

def locationsOf (source : RustProfile.Profile) (sample : RustProfile.Sample) : List RustProfile.Location :=
  sample.locationId.filterMap fun id => (SourceLookup.new source).locations.lookup id

namespace DictionaryBuilder

variable {d : DictionaryBuilder} {met : List Met}

theorem foldedAttributes_spec (h : Built d met) (isFolded : Bool) :
    let r := d.foldedAttributes isFolded
    Built r.2 met ∧ Quiet d r.2 ∧ ∀ i ∈ r.1, ∃ a, AttributeAt r.2.attributeIndex a i := by
  unfold foldedAttributes
  cases isFolded with
  | false => exact ⟨h, Quiet.refl d, fun i hi => (List.not_mem_nil hi).elim⟩
  | true =>
    obtain ⟨hb, hq, ha⟩ := internAttributeBool_spec h "pprof.location.is_folded" true
    refine ⟨hb, hq, fun i hi => ?_⟩
    rw [List.mem_singleton.mp hi]
    exact ⟨_, ha⟩

theorem internLines_spec (h : Built d met) (source : RustProfile.Profile) (lines : List RustProfile.Line) :
    let r := mapState (internLine source (SourceLookup.new source)) d lines
    Built r.2 met ∧ Grows d r.2 ∧ List.Forall₂ (fun l (e : Line) =>
      LineFits r.2.functionIndex source l (e.functionIndex, e.line, e.column)) lines r.1 :=
  @mapState_spec DictionaryBuilder RustProfile.Line Line _ (Built · met) Grows
    (fun d l e => LineFits d.functionIndex source l (e.functionIndex, e.line, e.column)) Grows.refl Grows.trans
    (fun hg hl => hl.mono hg.functions) lines (fun _ l _ hd => internLine_spec hd source l) d h

theorem pushLocation_spec (h : Built d met) {x : Met} (hx : x ∈ met) {mappingIndex : ℕ} {lines : List Line}
    {attributes : List ℕ} (hk : KeyFits d x (locationKey x.2.address mappingIndex lines))
    (hnew : d.locationIndex.lookup (locationKey x.2.address mappingIndex lines) = none)
    (ha : ∀ i ∈ attributes, ∃ a, AttributeAt d.attributeIndex a i) :
    let b : DictionaryBuilder := { d with
      locations := d.locations ++ [⟨mappingIndex, x.2.address, lines, attributes⟩]
      locationIndex := d.locationIndex.insert (locationKey x.2.address mappingIndex lines) d.locations.length }
    Built b met ∧ Grows d b ∧ LocationAt b x d.locations.length := by
  intro b
  have hg : Grows d b :=
    ⟨Extends.refl _, Extends.refl _, Extends.refl _, Extends.refl _, extends_insert hnew _, Extends.refl _⟩
  have hfits : LocationFits d met (locationKey x.2.address mappingIndex lines) d.locations.length
      ⟨mappingIndex, x.2.address, lines, attributes⟩ := ⟨rfl, ha, x, hx, hk⟩
  refine ⟨⟨h.strings, h.blank, h.attributes, h.functions, h.mappings, ?_, ?_, h.known⟩, hg, _, ?_, hk.mono hg⟩
  · exact (h.locations.push hnew hfits).mono fun _ _ _ hl => hl.mono hg
  · exact h.stackEntries.mono fun _ _ _ hs => hs.mono hg.locations
  · simp only [b, Table.lookup_insert, if_true]

theorem internLocation_spec (h : Encoded d met) (x : Met) :
    let r := internLocation x.1 (SourceLookup.new x.1) d x.2
    Encoded r.2 (met ++ [x]) ∧ Grows d r.2 ∧ LocationAt r.2 x r.1 := by
  obtain ⟨h₁, hg₁, hmapped, hunmapped⟩ := locationMapping_spec h.built x
  obtain ⟨h₂, hg₂, hlines⟩ := internLines_spec h₁ x.1 x.2.line
  unfold internLocation
  dsimp only at h₁ hg₁ hmapped hunmapped h₂ hg₂ hlines ⊢
  generalize locationMapping x.1 (SourceLookup.new x.1) d x.2.mappingId = r₁ at *
  generalize mapState (internLine x.1 (SourceLookup.new x.1)) r₁.2 x.2.line = r₂ at *
  have hg := hg₁.trans hg₂
  have hk : KeyFits r₂.2 x (locationKey x.2.address r₁.1 r₂.1) :=
    ⟨rfl, fun m hm => hg₂.mappings _ _ (hmapped m hm), hunmapped, List.forall₂_map_right_iff.mpr hlines⟩
  cases hl : r₂.2.locationIndex.lookup (locationKey x.2.address r₁.1 r₂.1) with
  | some index =>
    have hx : LocationAt r₂.2 x index := ⟨_, hl, hk⟩
    exact ⟨h.snoc h₂ hg hx, hg, hx⟩
  | none =>
    obtain ⟨h₃, hq₃, ha⟩ := foldedAttributes_spec h₂ x.2.isFolded
    dsimp only at h₃ hq₃ ha ⊢
    generalize r₂.2.foldedAttributes x.2.isFolded = r₃ at *
    have hl₃ : r₃.2.locationIndex.lookup (locationKey x.2.address r₁.1 r₂.1) = none := by rw [hq₃.locationIndex, hl]
    obtain ⟨h₄, hg₄, hx⟩ := pushLocation_spec h₃ (List.mem_append_right _ (List.mem_singleton_self x))
      (hk.mono hq₃.grows) hl₃ ha
    have hgrows := (hg.trans hq₃.grows).trans hg₄
    exact ⟨h.snoc h₄ hgrows hx, hgrows, hx⟩

theorem internStack_spec (h : Encoded d met) {source : RustProfile.Profile} {locations : List RustProfile.Location}
    {key : List ℕ} (hk : List.Forall₂ (fun l i => LocationAt d (source, l) i) locations key) :
    let r := d.internStack key
    Encoded r.2 met ∧ Grows d r.2 ∧ StackAt r.2 source locations r.1 := by
  unfold internStack
  cases hl : d.stackIndex.lookup key with
  | some index => exact ⟨h, Grows.refl d, key, hl, hk⟩
  | none =>
    have hg : Grows d { d with
        stackEntries := d.stackEntries ++ [{ locationIndices := key }]
        stackIndex := d.stackIndex.insert key d.stackEntries.length } :=
      ⟨Extends.refl _, Extends.refl _, Extends.refl _, Extends.refl _, Extends.refl _, extends_insert hl _⟩
    have hfits : StackFits d.locationIndex key d.stackEntries.length { locationIndices := key } := by
      refine ⟨rfl, fun i hi => ?_⟩
      obtain ⟨l, -, k, hk, -⟩ := exists_of_forall₂_right hk hi
      exact ⟨k, hk⟩
    have hb := h.built
    refine ⟨h.grows ⟨hb.strings, hb.blank, hb.attributes, hb.functions, hb.mappings, ?_, hb.stackEntries.push hl hfits,
      hb.known⟩ hg, hg, key, ?_, hk.imp fun _ _ hx => hx.mono hg⟩
    · exact hb.locations.mono fun _ _ _ hl => hl.mono hg
    · simp only [Table.lookup_insert, if_true]

theorem internSampleStack_spec (h : Encoded d met) (source : RustProfile.Profile) (sample : RustProfile.Sample) :
    let r := internSampleStack source (SourceLookup.new source) d sample
    Encoded r.2 (met ++ (locationsOf source sample).map (source, ·)) ∧ Grows d r.2 ∧
      StackAt r.2 source (locationsOf source sample) r.1 := by
  obtain ⟨h₁, hg₁, hlocations⟩ := @mapState_trace DictionaryBuilder RustProfile.Location ℕ Met
    (internLocation source (SourceLookup.new source)) (fun l => [(source, l)]) Encoded Grows
    (fun d l i => LocationAt d (source, l) i) Grows.refl Grows.trans (fun hg hx => hx.mono hg)
    (locationsOf source sample) (fun _ _ l _ hd => internLocation_spec hd (source, l)) d met h
  obtain ⟨h₂, hg₂, hstack⟩ := internStack_spec h₁ hlocations
  rw [← List.map_eq_flatMap] at h₂
  exact ⟨h₂, hg₁.trans hg₂, hstack⟩

end DictionaryBuilder

end Otlp

end RustProfile
