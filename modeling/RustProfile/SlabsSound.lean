import RustProfile.Stored
import Mathlib.Algebra.Order.BigOperators.Group.List

/-!
# Expansion puts the slabs in place

What comes out of an expansion is the value that the root has stored, and it
costs what that stored value is charged. On a stored value no placeholder leads
back to itself, and nothing else is taken for a cycle.
-/

namespace RustProfile

section
variable {F : Type} [F64 F] [FloatBits F] (parsed : ParsedFile F)

/-- The slabs of the file hold what has been moved to them. -/
inductive StoredIn : Stored F → Prop
  | scalar {value : Value F} : value.isScalar = true → StoredIn (.scalar value)
  | array {items : List (Stored F)} : (∀ item ∈ items, StoredIn item) → StoredIn (.array items)
  | object {fields : List (String × Stored F)} : fields.map Prod.fst ≠ ["$s"] → (∀ field ∈ fields, StoredIn field.2) →
      StoredIn (.object fields)
  | json {index : UInt64} {slab : Slab} {content : Stored F} : parsed.slabAt index = .ok slab → slab.slabType = .json →
      parsed.fromSlice slab.bytes = some content.root → StoredIn content → StoredIn (.json index content)
  | typed {index : UInt64} {slab : Slab} {kind : ElementType} {values : List (Value F)} :
      parsed.slabAt index = .ok slab → slab.slabType = .typed kind → slabValues kind slab.bytes = .ok values →
      StoredIn (.typed index values)

/-- A placeholder of the slab stands somewhere in the value. -/
inductive Mentions : Value F → UInt64 → Prop
  | here {value inner : Value F} {index : UInt64} : value.placeholder = some inner → inner.asU64 = some index →
      Mentions value index
  | array {values : List (Value F)} {value : Value F} {index : UInt64} : value ∈ values → Mentions value index →
      Mentions (.array values) index
  | object {fields : List (String × Value F)} {field : String × Value F} {index : UInt64} :
      (Value.object fields).placeholder = none → field ∈ fields → Mentions field.2 index →
      Mentions (.object fields) index

def Refers (i j : UInt64) : Prop :=
  ∃ slab value, parsed.slabAt i = .ok slab ∧ slab.slabType = .json ∧ parsed.fromSlice slab.bytes = some value ∧
    Mentions value j

def Reaches (value : Value F) (i : UInt64) : Prop :=
  ∃ j, Mentions value j ∧ Relation.ReflTransGen (Refers parsed) j i

/-- A cycle of placeholders is reached. -/
def Cyclic (value : Value F) : Prop := ∃ i, Reaches parsed value i ∧ Relation.TransGen (Refers parsed) i i

/-! ## Placeholders -/

omit [F64 F] [FloatBits F] in
theorem placeholder_object {fields : List (String × Value F)} :
    (Value.object fields).placeholder = none ↔ fields.map Prod.fst ≠ ["$s"] := by
  cases fields with
  | nil => simp [Value.placeholder]
  | cons field fields =>
    cases fields with
    | nil =>
      obtain ⟨name, inner⟩ := field
      simp [Value.placeholder]
    | cons _ _ => simp [Value.placeholder]

omit [F64 F] [FloatBits F] in
theorem placeholder_scalar {value : Value F} (h : value.isScalar = true) : value.placeholder = none := by
  cases value with
  | object _ => cases h
  | _ => rfl

omit [F64 F] [FloatBits F] in
theorem placeholder_eq_some {value inner : Value F} (h : value.placeholder = some inner) :
    value = .object [("$s", inner)] := by
  unfold Value.placeholder at h
  split at h
  · split at h
    · rename_i hname
      rw [Option.some.injEq] at h
      rw [hname, h]
    · cases h
  · cases h

omit [F64 F] [FloatBits F] in
theorem placeholder_placeholderOf (index : UInt64) :
    (Value.placeholderOf index : Value F).placeholder = some (.number (.posInt index)) := rfl

omit [F64 F] [FloatBits F] in
theorem asU64_eq_some {value : Value F} {index : UInt64} (h : value.asU64 = some index) :
    value = .number (.posInt index) := by
  cases value with
  | number n =>
    cases n with
    | posInt m => cases h; rfl
    | _ => cases h
  | _ => cases h

omit [F64 F] [FloatBits F] in
theorem mentions_placeholderOf {index j : UInt64} : Mentions (Value.placeholderOf index : Value F) j ↔ j = index := by
  constructor
  · intro h
    generalize hvalue : (Value.placeholderOf index : Value F) = value at h
    cases h with
    | here hplaceholder hinner =>
      rw [← hvalue, placeholder_placeholderOf] at hplaceholder
      cases hplaceholder
      cases hinner
      rfl
    | array => cases hvalue
    | object hnone =>
      rw [← hvalue] at hnone
      cases hnone
  · rintro rfl
    exact Mentions.here rfl rfl

omit [F64 F] [FloatBits F] in
theorem mentions_array {values : List (Value F)} {j : UInt64} :
    Mentions (.array values) j ↔ ∃ value ∈ values, Mentions value j := by
  constructor
  · intro h
    cases h with
    | here hplaceholder => cases hplaceholder
    | array hmem h => exact ⟨_, hmem, h⟩
  · rintro ⟨value, hmem, h⟩
    exact Mentions.array hmem h

omit [F64 F] [FloatBits F] in
theorem mentions_object {fields : List (String × Value F)} (hnone : (Value.object fields).placeholder = none)
    {j : UInt64} : Mentions (.object fields) j ↔ ∃ field ∈ fields, Mentions field.2 j := by
  constructor
  · intro h
    cases h with
    | here hplaceholder => rw [hnone] at hplaceholder; cases hplaceholder
    | object _ hmem h => exact ⟨_, hmem, h⟩
  · rintro ⟨field, hmem, h⟩
    exact Mentions.object hnone hmem h

omit [F64 F] [FloatBits F] in
theorem not_mentions_scalar {value : Value F} (h : value.isScalar = true) (j : UInt64) : ¬ Mentions value j := by
  intro hmentions
  cases hmentions with
  | here hplaceholder => rw [placeholder_scalar h] at hplaceholder; cases hplaceholder
  | array => cases h
  | object => cases h

/-! ## No placeholder of a stored value leads back to itself -/

variable {parsed}

omit [F64 F] [FloatBits F] in
theorem size_le_of_mem {items : List (Stored F)} {item : Stored F} (h : item ∈ items) :
    item.size < (Stored.array items).size := by
  have hle : item.size ≤ (items.map Stored.size).sum := List.single_le_sum (by simp) _ (List.mem_map_of_mem h)
  rw [Stored.size_array]
  omega

omit [F64 F] [FloatBits F] in
theorem size_le_of_mem_fields {fields : List (String × Stored F)} {field : String × Stored F} (h : field ∈ fields) :
    field.2.size < (Stored.object fields).size := by
  have hle : field.2.size ≤ (fields.map fun field => field.2.size).sum :=
    List.single_le_sum (by simp) _ (List.mem_map_of_mem (f := fun field : String × Stored F => field.2.size) h)
  rw [Stored.size_object]
  omega

omit [F64 F] [FloatBits F] in
theorem placeholder_root_object {fields : List (String × Stored F)} (h : fields.map Prod.fst ≠ ["$s"]) :
    (Stored.object fields).root.placeholder = none := by
  rw [Stored.root_object, placeholder_object, List.map_map]
  exact h

theorem StoredIn.of_mentions {stored : Stored F} (h : StoredIn parsed stored) : ∀ {j : UInt64},
    Mentions stored.root j → ∃ part, StoredIn parsed part ∧ part.root = Value.placeholderOf j ∧
      part.size ≤ stored.size := by
  induction h with
  | scalar hscalar =>
    intro j hmentions
    exact absurd hmentions (not_mentions_scalar hscalar j)
  | @array items _ ih =>
    intro j hmentions
    rw [Stored.root_array, mentions_array] at hmentions
    obtain ⟨value, hmem, hmentions⟩ := hmentions
    obtain ⟨item, hitem, rfl⟩ := List.mem_map.mp hmem
    obtain ⟨part, hpart, hroot, hsize⟩ := ih item hitem hmentions
    exact ⟨part, hpart, hroot, hsize.trans (size_le_of_mem hitem).le⟩
  | @object fields hnames _ ih =>
    intro j hmentions
    have hnone := placeholder_root_object hnames
    rw [Stored.root_object] at hmentions hnone
    rw [mentions_object hnone] at hmentions
    obtain ⟨field, hmem, hmentions⟩ := hmentions
    obtain ⟨item, hitem, rfl⟩ := List.mem_map.mp hmem
    obtain ⟨part, hpart, hroot, hsize⟩ := ih item hitem hmentions
    exact ⟨part, hpart, hroot, hsize.trans (size_le_of_mem_fields hitem).le⟩
  | json hslab htype hjson hcontent _ =>
    intro j hmentions
    rw [mentions_placeholderOf.mp hmentions]
    exact ⟨_, StoredIn.json hslab htype hjson hcontent, rfl, le_refl _⟩
  | typed hslab htype hvalues =>
    intro j hmentions
    rw [mentions_placeholderOf.mp hmentions]
    exact ⟨_, StoredIn.typed hslab htype hvalues, rfl, le_refl _⟩

/-- A slab that is referred to holds a smaller part. -/
theorem StoredIn.of_refers {stored : Stored F} (h : StoredIn parsed stored) {i j : UInt64}
    (hroot : stored.root = Value.placeholderOf i) (hrefers : Refers parsed i j) :
    ∃ part, StoredIn parsed part ∧ part.root = Value.placeholderOf j ∧ part.size < stored.size := by
  obtain ⟨slab, value, hslab, htype, hjson, hmentions⟩ := hrefers
  have hplaceholder : stored.root.placeholder = some (.number (.posInt i)) := by
    rw [hroot]
    rfl
  cases h with
  | scalar hscalar => cases hplaceholder.symm.trans (placeholder_scalar hscalar)
  | array => rw [Stored.root_array] at hroot; cases hroot
  | object hnames =>
    rw [placeholder_root_object hnames] at hplaceholder
    cases hplaceholder
  | json hslab' _ hjson' hcontent =>
    cases hroot
    cases hslab.symm.trans hslab'
    cases hjson.symm.trans hjson'
    obtain ⟨part, hpart, hpartRoot, hsize⟩ := hcontent.of_mentions hmentions
    exact ⟨part, hpart, hpartRoot, Nat.lt_succ_of_le hsize⟩
  | typed hslab' htype' =>
    cases hroot
    cases hslab.symm.trans hslab'
    cases htype.symm.trans htype'

theorem StoredIn.not_transGen : ∀ {n : ℕ} {stored : Stored F}, stored.size ≤ n → StoredIn parsed stored →
    ∀ {i : UInt64}, stored.root = Value.placeholderOf i → ¬ Relation.TransGen (Refers parsed) i i := by
  intro n
  induction n with
  | zero =>
    intro stored hsize h i hroot hcycle
    obtain ⟨j, hrefers, -⟩ := Relation.TransGen.head'_iff.mp hcycle
    obtain ⟨part, -, -, hpart⟩ := h.of_refers hroot hrefers
    omega
  | succ n ih =>
    intro stored hsize h i hroot hcycle
    -- one turn of the cycle leads to a smaller part in the same slab
    have hturn : ∀ {k : UInt64}, Relation.TransGen (Refers parsed) i k →
        ∃ part, StoredIn parsed part ∧ part.root = Value.placeholderOf k ∧ part.size < stored.size := by
      intro k hpath
      induction hpath with
      | single hrefers => exact h.of_refers hroot hrefers
      | tail _ hrefers ihPath =>
        obtain ⟨part, hpart, hpartRoot, hpartSize⟩ := ihPath
        obtain ⟨next, hnext, hnextRoot, hnextSize⟩ := hpart.of_refers hpartRoot hrefers
        exact ⟨next, hnext, hnextRoot, hnextSize.trans hpartSize⟩
    obtain ⟨part, hpart, hpartRoot, hpartSize⟩ := hturn hcycle
    exact ih (by omega) hpart hpartRoot hcycle

theorem StoredIn.not_cyclic {stored : Stored F} (h : StoredIn parsed stored) : ¬ Cyclic parsed stored.root := by
  rintro ⟨i, ⟨j, hmentions, hpath⟩, hcycle⟩
  have hparts : ∀ {k : UInt64}, Relation.ReflTransGen (Refers parsed) j k →
      ∃ part, StoredIn parsed part ∧ part.root = Value.placeholderOf k := by
    intro k hpath
    induction hpath with
    | refl =>
      obtain ⟨part, hpart, hroot, -⟩ := h.of_mentions hmentions
      exact ⟨part, hpart, hroot⟩
    | tail _ hrefers ih =>
      obtain ⟨part, hpart, hroot⟩ := ih
      obtain ⟨further, hfurther, hfurtherRoot, -⟩ := hpart.of_refers hroot hrefers
      exact ⟨further, hfurther, hfurtherRoot⟩
  obtain ⟨part, hpart, hroot⟩ := hparts hpath
  exact hpart.not_transGen (le_refl _) hroot hcycle

/-! ## Typed slabs -/

omit [F64 F] [FloatBits F] in
theorem length_chunksExact (size : ℕ) (bytes : List UInt8) : (chunksExact size bytes).length = bytes.length / size := by
  rw [chunksExact, List.length_map, List.length_range]

/-- A typed slab is its chunks, each a number, unless one is no finite number. -/
theorem slabValues_eq (kind : ElementType) (bytes : List UInt8) :
    ∃ decode : List UInt8 → Except ExpandError (Value F),
      slabValues kind bytes = (chunksExact kind.size bytes).mapM decode ∧
      (∀ chunk value, decode chunk = .ok value → value.isScalar = true) ∧
      ∀ chunk e, decode chunk = .error e → e = .nonFinite := by
  have hint : ∀ (size : ℕ) (decode : List UInt8 → ℤ), ∃ decode' : List UInt8 → Except ExpandError (Value F),
      .ok ((chunksExact size bytes).map fun chunk => .ofInt (decode chunk)) = (chunksExact size bytes).mapM decode' ∧
        (∀ chunk value, decode' chunk = .ok value → value.isScalar = true) ∧
        ∀ chunk e, decode' chunk = .error e → e = .nonFinite := by
    intro size decode
    refine ⟨fun chunk => pure (.ofInt (decode chunk)), ?_, fun chunk value h => ?_, fun chunk e h => ?_⟩
    · rw [List.mapM_pure]
      rfl
    · cases h
      rfl
    · cases h
  have hfloat : ∀ (size : ℕ) (decode : ℕ → F), ∃ decode' : List UInt8 → Except ExpandError (Value F),
      floatChunks size decode bytes = (chunksExact size bytes).mapM decode' ∧
        (∀ chunk value, decode' chunk = .ok value → value.isScalar = true) ∧
        ∀ chunk e, decode' chunk = .error e → e = .nonFinite := by
    intro size decode
    refine ⟨_, rfl, fun chunk value h => ?_, fun chunk e h => ?_⟩
    · dsimp only at h
      split at h
      · cases h
        rfl
      · cases h
    · dsimp only at h
      split at h
      · cases h
      · cases h
        rfl
  cases kind with
  | int8 => exact hint 1 signedLe
  | uint8 => exact hint 1 fun chunk => Bytes.toNat chunk
  | int16 => exact hint 2 signedLe
  | uint16 => exact hint 2 fun chunk => Bytes.toNat chunk
  | int32 => exact hint 4 signedLe
  | uint32 => exact hint 4 fun chunk => Bytes.toNat chunk
  | int64 => exact hint 8 signedLe
  | uint64 => exact hint 8 fun chunk => Bytes.toNat chunk
  | float32 => exact hfloat 4 FloatBits.fromF32
  | float64 => exact hfloat 8 FloatBits.fromF64

theorem slabValues_ok {kind : ElementType} {bytes : List UInt8} {values : List (Value F)}
    (h : slabValues kind bytes = .ok values) :
    values.length = bytes.length / kind.size ∧ ∀ value ∈ values, value.isScalar = true := by
  obtain ⟨decode, heq, hscalar, -⟩ := slabValues_eq (F := F) kind bytes
  rw [heq] at h
  have hforall := Except.mapM_eq_ok h
  exact ⟨by rw [← hforall.length_eq, length_chunksExact], Except.forall_of_forall₂ hscalar hforall⟩

theorem slabValues_error {kind : ElementType} {bytes : List UInt8} {e : ExpandError}
    (h : slabValues (F := F) kind bytes = .error e) : e = .nonFinite := by
  obtain ⟨decode, heq, -, herror⟩ := slabValues_eq (F := F) kind bytes
  rw [heq] at h
  obtain ⟨chunk, -, hchunk⟩ := Except.mapM_eq_error h
  exact herror chunk e hchunk

/-! ## What an expansion costs -/

def expandPurse : Purse ExpandState where
  left state := state.remaining
  spend n state := { state with remaining := state.remaining - n }
  left_spend _ _ := rfl
  spend_spend m n state := by simp [Nat.sub_sub]
  spend_zero _ := rfl

omit [F64 F] [FloatBits F] in
theorem consumeExpanded_outcome (count : ℕ) (state : ExpandState) : (consumeExpanded count).outcome state =
    if count ≤ state.remaining then (.ok (), expandPurse.spend count state) else (.error .budget, state) := by
  unfold consumeExpanded consume
  rw [Attempt.outcome_bind, Attempt.outcome_get]
  dsimp only
  rw [Attempt.outcome_bind, Attempt.outcome_ofExcept]
  by_cases h : count ≤ state.remaining
  · rw [if_pos h, if_pos h]
    rfl
  · rw [if_neg h, if_neg h]

omit [F64 F] [FloatBits F] in
theorem enter_outcome (index : UInt64) (state : ExpandState) : (enter index).outcome state =
    if index ∈ state.active then (.error (.cyclic index), state)
    else (.ok (), { state with active := insert index state.active }) := by
  unfold enter
  rw [Attempt.outcome_bind, Attempt.outcome_get]
  dsimp only
  by_cases h : index ∈ state.active
  · rw [if_pos h, if_pos h]
    rfl
  · rw [if_neg h, if_neg h]
    rfl

omit [F64 F] [FloatBits F] in
theorem consumeExpanded_costs {Ok : ExpandState → Prop} (count : ℕ) :
    expandPurse.Costs Ok True (consumeExpanded count) () count := by
  intro s t r _
  rw [consumeExpanded_outcome]
  change (if count ≤ expandPurse.left s then _ else _) = _ ↔ _
  by_cases h : count ≤ expandPurse.left s
  · simp [h, eq_comm]
  · simp [h]

theorem expandSlabs_object (levels : ℕ) {fields : List (String × Value F)}
    (h : (Value.object fields).placeholder = none) : expandSlabs parsed (levels + 1) (.object fields) = (do
      consumeExpanded fields.length
      return .object (← fields.mapM fun field => return (field.1, ← expandSlabs parsed levels field.2))) := by
  rw [expandSlabs, h]

theorem expandSlabs_array (levels : ℕ) (values : List (Value F)) : expandSlabs parsed (levels + 1) (.array values) = (do
      consumeExpanded values.length
      return .array (← values.mapM fun value => expandSlabs parsed levels value)) := by
  rw [expandSlabs]
  rfl

theorem expandSlabs_scalar (levels : ℕ) {value : Value F} (h : value.isScalar = true) :
    expandSlabs parsed (levels + 1) value = (do
      consumeExpanded 1
      return value) := by
  cases value with
  | array _ => cases h
  | object _ => cases h
  | _ => rfl

theorem expandSlabs_placeholder (levels : ℕ) {value inner : Value F} (h : value.placeholder = some inner) :
    expandSlabs parsed (levels + 1) value = (do
      let index ← Attempt.ofOption inner.asU64 .placeholder
      enter index
      let expanded ← expandSlab parsed (expandSlabs parsed levels) index
      leave index
      return expanded) := by
  rw [placeholder_eq_some h]
  rfl

/-! ## An expanded value was stored -/

/-- No slab that the value leads to is being expanded. -/
def Unreached (parsed : ParsedFile F) (value : Value F) (state : ExpandState) : Prop :=
  ∀ j, Reaches parsed value j → j ∉ state.active

omit [F64 F] [FloatBits F] in
theorem reaches_placeholder {value : Value F} {index j : UInt64}
    (h : value.placeholder = some (.number (.posInt index))) : Reaches parsed value j ↔
      j = index ∨ ∃ slab content, parsed.slabAt index = .ok slab ∧ slab.slabType = .json ∧
        parsed.fromSlice slab.bytes = some content ∧ Reaches parsed content j := by
  have hvalue : value = Value.placeholderOf index := placeholder_eq_some h
  rw [hvalue]
  constructor
  · rintro ⟨k, hmentions, hpath⟩
    rw [mentions_placeholderOf.mp hmentions] at hpath
    rcases Relation.ReflTransGen.cases_head hpath with rfl | ⟨l, hrefers, hpath⟩
    · exact Or.inl rfl
    · obtain ⟨slab, content, hslab, htype, hjson, hmentions⟩ := hrefers
      exact Or.inr ⟨slab, content, hslab, htype, hjson, l, hmentions, hpath⟩
  · rintro (rfl | ⟨slab, content, hslab, htype, hjson, k, hmentions, hpath⟩)
    · exact ⟨j, mentions_placeholderOf.mpr rfl, Relation.ReflTransGen.refl⟩
    · exact ⟨index, mentions_placeholderOf.mpr rfl,
        Relation.ReflTransGen.head ⟨slab, content, hslab, htype, hjson, hmentions⟩ hpath⟩

omit [F64 F] [FloatBits F] in
theorem reaches_array {values : List (Value F)} {j : UInt64} :
    Reaches parsed (.array values) j ↔ ∃ value ∈ values, Reaches parsed value j := by
  constructor
  · rintro ⟨k, hmentions, hpath⟩
    obtain ⟨value, hmem, hmentions⟩ := mentions_array.mp hmentions
    exact ⟨value, hmem, k, hmentions, hpath⟩
  · rintro ⟨value, hmem, k, hmentions, hpath⟩
    exact ⟨k, mentions_array.mpr ⟨value, hmem, hmentions⟩, hpath⟩

omit [F64 F] [FloatBits F] in
theorem reaches_object {fields : List (String × Value F)} (hnone : (Value.object fields).placeholder = none)
    {j : UInt64} : Reaches parsed (.object fields) j ↔ ∃ field ∈ fields, Reaches parsed field.2 j := by
  constructor
  · rintro ⟨k, hmentions, hpath⟩
    obtain ⟨field, hmem, hmentions⟩ := (mentions_object hnone).mp hmentions
    exact ⟨field, hmem, k, hmentions, hpath⟩
  · rintro ⟨field, hmem, k, hmentions, hpath⟩
    exact ⟨k, (mentions_object hnone).mpr ⟨field, hmem, hmentions⟩, hpath⟩

omit [F64 F] [FloatBits F] in
theorem not_reaches_scalar {value : Value F} (h : value.isScalar = true) (j : UInt64) : ¬ Reaches parsed value j := by
  rintro ⟨k, hmentions, -⟩
  exact not_mentions_scalar h k hmentions

/-- The value is the root of something stored, of which nothing is being expanded. -/
def Expandable (parsed : ParsedFile F) (active : Finset UInt64) (value : Value F) : Prop :=
  (∃ stored, StoredIn parsed stored ∧ stored.root = value) ∧ ∀ j, Reaches parsed value j → j ∉ active

omit [F64 F] [FloatBits F] in
theorem exists_map_eq {α β : Type} {f : β → α} {p : β → Prop} : ∀ {items : List α},
    (∀ a ∈ items, ∃ b, p b ∧ f b = a) → ∃ bs : List β, (∀ b ∈ bs, p b) ∧ bs.map f = items
  | [], _ => ⟨[], fun _ h => absurd h List.not_mem_nil, rfl⟩
  | a :: items, h => by
    obtain ⟨⟨b, hb, rfl⟩, hitems⟩ := List.forall_mem_cons.mp h
    obtain ⟨bs, hbs, rfl⟩ := exists_map_eq hitems
    exact ⟨b :: bs, List.forall_mem_cons.mpr ⟨hb, hbs⟩, rfl⟩

theorem Expandable.array {active : Finset UInt64} {values : List (Value F)}
    (h : ∀ value ∈ values, Expandable parsed active value) : Expandable parsed active (.array values) := by
  constructor
  · obtain ⟨items, hitems, hroots⟩ := exists_map_eq fun value hvalue => (h value hvalue).1
    exact ⟨.array items, StoredIn.array hitems, by rw [Stored.root_array, hroots]⟩
  · intro j hreaches
    obtain ⟨value, hvalue, hreaches⟩ := reaches_array.mp hreaches
    exact (h value hvalue).2 j hreaches

theorem Expandable.object {active : Finset UInt64} {fields : List (String × Value F)}
    (hnone : (Value.object fields).placeholder = none) (h : ∀ field ∈ fields, Expandable parsed active field.2) :
    Expandable parsed active (.object fields) := by
  constructor
  · have hparts : ∀ field ∈ fields, ∃ part : String × Stored F, StoredIn parsed part.2 ∧
        (part.1, part.2.root) = field := by
      intro field hfield
      obtain ⟨stored, hstored, hroot⟩ := (h field hfield).1
      exact ⟨(field.1, stored), hstored, by rw [hroot]⟩
    obtain ⟨parts, hstored, hroots⟩ := exists_map_eq hparts
    have hnames : parts.map Prod.fst = fields.map Prod.fst := by
      rw [← hroots, List.map_map]
      rfl
    refine ⟨.object parts, StoredIn.object ?_ hstored, by rw [Stored.root_object, hroots]⟩
    rw [hnames]
    exact placeholder_object.mp hnone
  · intro j hreaches
    obtain ⟨field, hfield, hreaches⟩ := (reaches_object hnone).mp hreaches
    exact (h field hfield).2 j hreaches

theorem Expandable.scalar {active : Finset UInt64} {value : Value F} (h : value.isScalar = true) :
    Expandable parsed active value :=
  ⟨⟨.scalar value, StoredIn.scalar h, rfl⟩, fun j hreaches => absurd hreaches (not_reaches_scalar h j)⟩

omit [F64 F] [FloatBits F] in
theorem consumeExpanded_ok {count : ℕ} {s t : ExpandState} {r : Unit}
    (h : (consumeExpanded count).outcome s = (.ok r, t)) : t.active = s.active := by
  rw [consumeExpanded_outcome] at h
  split at h
  · cases h
    rfl
  · cases h

theorem expandSlab_ok {expand : Value F → Attempt ExpandError ExpandState (Value F)} {index : UInt64}
    {s t : ExpandState} {r : Value F} (h : (expandSlab parsed expand index).outcome s = (.ok r, t)) :
    ∃ slab, parsed.slabAt index = .ok slab ∧
      ((∃ content, slab.slabType = .json ∧ parsed.fromSlice slab.bytes = some content ∧
          (expand content).outcome s = (.ok r, t)) ∨
        ∃ kind values, slab.slabType = .typed kind ∧ slabValues kind slab.bytes = .ok values ∧ r = .array values ∧
          (consumeExpanded (parsed.elementCount slab)).outcome s = (.ok (), t)) := by
  unfold expandSlab at h
  obtain ⟨slab, u, hread, hslab⟩ := Attempt.bind_ok.mp h
  obtain ⟨hfound, rfl⟩ := Attempt.ofExcept_ok.mp hread
  have hslabAt : parsed.slabAt index = .ok slab := by
    cases hat : parsed.slabAt index with
    | error text => rw [hat] at hfound; cases hfound
    | ok slab' => rw [hat] at hfound; cases hfound; rfl
  refine ⟨slab, hslabAt, ?_⟩
  cases htype : slab.slabType with
  | json =>
    rw [htype] at hslab
    obtain ⟨content, v, hread, hexpand⟩ := Attempt.bind_ok.mp hslab
    obtain ⟨hcontent, rfl⟩ := Attempt.ofOption_ok.mp hread
    exact Or.inl ⟨content, rfl, hcontent, hexpand⟩
  | typed kind =>
    rw [htype] at hslab
    obtain ⟨⟨⟩, v, hconsume, hslab⟩ := Attempt.bind_ok.mp hslab
    obtain ⟨values, w, hread, hslab⟩ := Attempt.bind_ok.mp hslab
    rw [Attempt.outcome_pure] at hslab
    cases hslab
    obtain ⟨hvalues, rfl⟩ := Attempt.ofExcept_ok.mp hread
    exact Or.inr ⟨kind, values, rfl, hvalues, rfl, hconsume⟩

omit [F64 F] [FloatBits F] in
theorem enter_ok {index : UInt64} {s t : ExpandState} {r : Unit} (h : (enter index).outcome s = (.ok r, t)) :
    index ∉ s.active ∧ t = { s with active := insert index s.active } := by
  rw [enter_outcome] at h
  split at h
  · cases h
  · rename_i hnew
    cases h
    exact ⟨hnew, rfl⟩

omit [F64 F] [FloatBits F] in
theorem leave_outcome (index : UInt64) (state : ExpandState) :
    (leave index).outcome state = (.ok (), { state with active := state.active.erase index }) := rfl

/-- A placeholder expands when its slab does, which must not be there already. -/
theorem expandSlabs_placeholder_ok {levels : ℕ} {value : Value F} {index : UInt64}
    (h : value.placeholder = some (.number (.posInt index))) {s t : ExpandState} {r : Value F} :
    (expandSlabs parsed (levels + 1) value).outcome s = (.ok r, t) ↔ index ∉ s.active ∧
      ∃ u, (expandSlab parsed (expandSlabs parsed levels) index).outcome
          { s with active := insert index s.active } = (.ok r, u) ∧
        t = { u with active := u.active.erase index } := by
  have hindex : (Value.number (Number.posInt index) : Value F).asU64 = some index := rfl
  rw [expandSlabs_placeholder levels h, hindex, Attempt.ofOption, pure_bind, Attempt.outcome_bind, enter_outcome]
  by_cases hmem : index ∈ s.active
  · rw [if_pos hmem]
    exact iff_of_false (fun h => by cases h) fun h => h.1 hmem
  · rw [if_neg hmem]
    dsimp only
    rw [Attempt.bind_ok]
    constructor
    · rintro ⟨a, u, hslab, hrest⟩
      rw [Attempt.outcome_bind, leave_outcome] at hrest
      cases hrest
      exact ⟨hmem, u, hslab, rfl⟩
    · rintro ⟨-, u, hslab, rfl⟩
      exact ⟨r, u, hslab, by rw [Attempt.outcome_bind, leave_outcome]; rfl⟩

/-- **What expands was stored**, and the slabs being expanded are the same afterwards. -/
theorem expandable_of_ok : ∀ {levels : ℕ} {value result : Value F} {s t : ExpandState},
    (expandSlabs parsed levels value).outcome s = (.ok result, t) →
      t.active = s.active ∧ Expandable parsed s.active value := by
  intro levels
  induction levels with
  | zero =>
    intro value result s t h
    cases h
  | succ levels ih =>
    intro value result s t h
    -- a placeholder takes a level of its own, so the induction on the levels covers the slab
    cases hplaceholder : value.placeholder with
    | some inner =>
      obtain ⟨index, hindex⟩ : ∃ index, inner = .number (.posInt index) := by
        rw [expandSlabs_placeholder levels hplaceholder] at h
        obtain ⟨index, u, hindex, -⟩ := Attempt.bind_ok.mp h
        exact ⟨index, asU64_eq_some (Attempt.ofOption_ok.mp hindex).1⟩
      rw [hindex] at hplaceholder
      obtain ⟨hnew, u, hexpanded, rfl⟩ := (expandSlabs_placeholder_ok hplaceholder).mp h
      have herase : (insert index s.active).erase index = s.active := Finset.erase_insert hnew
      have hroot : value = Value.placeholderOf index := placeholder_eq_some hplaceholder
      obtain ⟨slab, hslab, ⟨content, htype, hjson, hcontent⟩ | ⟨kind, values, htype, hvalues, -, hconsume⟩⟩ :=
        expandSlab_ok hexpanded
      · obtain ⟨hactive, ⟨stored, hstored, rfl⟩, hunreached⟩ := ih hcontent
        refine ⟨by rw [hactive, herase], ⟨.json index stored, StoredIn.json hslab htype hjson hstored, hroot.symm⟩,
          fun j hreaches => ?_⟩
        rcases (reaches_placeholder hplaceholder).mp hreaches with rfl | ⟨slab', content', hslab', -, hjson', hreaches⟩
        · exact hnew
        · cases hslab.symm.trans hslab'
          cases hjson.symm.trans hjson'
          exact fun hmem => hunreached j hreaches (Finset.mem_insert_of_mem hmem)
      · have hactive := consumeExpanded_ok hconsume
        refine ⟨by rw [hactive, herase], ⟨.typed index values, StoredIn.typed hslab htype hvalues, hroot.symm⟩,
          fun j hreaches => ?_⟩
        rcases (reaches_placeholder hplaceholder).mp hreaches with rfl | ⟨slab', content', hslab', htype', -⟩
        · exact hnew
        · cases hslab.symm.trans hslab'
          cases htype.symm.trans htype'
    | none =>
      by_cases hscalar : value.isScalar = true
      · rw [expandSlabs_scalar levels hscalar] at h
        obtain ⟨⟨⟩, u, hconsume, h⟩ := Attempt.bind_ok.mp h
        rw [Attempt.outcome_pure] at h
        cases h
        exact ⟨consumeExpanded_ok hconsume, Expandable.scalar hscalar⟩
      cases value with
      | array values =>
        rw [expandSlabs_array] at h
        obtain ⟨⟨⟩, u, hconsume, h⟩ := Attempt.bind_ok.mp h
        obtain ⟨out, v, hvalues, h⟩ := Attempt.bind_ok.mp h
        rw [Attempt.outcome_pure] at h
        cases h
        have hstep : ∀ value ∈ values, ∀ (s' t' : ExpandState) (b : Value F), s'.active = s.active →
            (expandSlabs parsed levels value).outcome s' = (.ok b, t') →
              t'.active = s.active ∧ Expandable parsed s.active value := by
          intro value _ s' t' b hs' hb
          obtain ⟨ht', hexpandable⟩ := ih hb
          rw [hs'] at ht' hexpandable
          exact ⟨ht', hexpandable⟩
        obtain ⟨hactive, hall⟩ := Attempt.mapM_ok hstep (consumeExpanded_ok hconsume) hvalues
        exact ⟨hactive, Expandable.array hall⟩
      | object fields =>
        rw [expandSlabs_object levels hplaceholder] at h
        obtain ⟨⟨⟩, u, hconsume, h⟩ := Attempt.bind_ok.mp h
        obtain ⟨out, v, hfields, h⟩ := Attempt.bind_ok.mp h
        rw [Attempt.outcome_pure] at h
        cases h
        have hstep : ∀ field ∈ fields, ∀ (s' t' : ExpandState) (b : String × Value F), s'.active = s.active →
            Attempt.outcome (do return (field.1, ← expandSlabs parsed levels field.2)) s' = (.ok b, t') →
              t'.active = s.active ∧ Expandable parsed s.active field.2 := by
          intro field _ s' t' b hs' hb
          obtain ⟨r, w, hr, hb⟩ := Attempt.bind_ok.mp hb
          rw [Attempt.outcome_pure] at hb
          cases hb
          obtain ⟨ht', hexpandable⟩ := ih hr
          rw [hs'] at ht' hexpandable
          exact ⟨ht', hexpandable⟩
        obtain ⟨hactive, hall⟩ := Attempt.mapM_ok hstep (consumeExpanded_ok hconsume) hfields
        exact ⟨hactive, Expandable.object hplaceholder hall⟩
      | _ => exact absurd rfl hscalar

/-! ## What a stored value costs -/

theorem expandSlab_json {expand : Value F → Attempt ExpandError ExpandState (Value F)} {index : UInt64} {slab : Slab}
    {content : Value F} (hslab : parsed.slabAt index = .ok slab) (htype : slab.slabType = .json)
    (hjson : parsed.fromSlice slab.bytes = some content) : expandSlab parsed expand index = expand content := by
  have hat : (Except.ok slab : Except String Slab).mapError ExpandError.slabAt = .ok slab := rfl
  rw [expandSlab, hslab, hat, Attempt.ofExcept, pure_bind, htype]
  dsimp only
  rw [hjson, Attempt.ofOption, pure_bind]

theorem expandSlab_typed {expand : Value F → Attempt ExpandError ExpandState (Value F)} {index : UInt64} {slab : Slab}
    {kind : ElementType} {values : List (Value F)} (hslab : parsed.slabAt index = .ok slab)
    (htype : slab.slabType = .typed kind) (hvalues : slabValues kind slab.bytes = .ok values) :
    expandSlab parsed expand index = (do
      consumeExpanded (parsed.elementCount slab)
      return .array values) := by
  have hat : (Except.ok slab : Except String Slab).mapError ExpandError.slabAt = .ok slab := rfl
  rw [expandSlab, hslab, hat, Attempt.ofExcept, pure_bind, htype]
  dsimp only
  rw [hvalues, Attempt.ofExcept]
  simp only [pure_bind]

omit [F64 F] [FloatBits F] in
theorem levels_pos (stored : Stored F) : 0 < stored.levels := by
  cases stored with
  | scalar => exact Nat.one_pos
  | array => rw [Stored.levels_array]; omega
  | object => rw [Stored.levels_object]; omega
  | json => exact Nat.succ_pos _
  | typed => exact Nat.one_pos

/-- `element_count` is the number of whole elements. -/
def CountsElements (parsed : ParsedFile F) : Prop :=
  ∀ (slab : Slab) (kind : ElementType), slab.slabType = .typed kind →
    parsed.elementCount slab = slab.bytes.length / kind.size

theorem placeholder_costs (levels : ℕ) {value result : Value F} {index : UInt64} {can : Prop} {cost : ℕ}
    {s : ExpandState} (hplaceholder : value.placeholder = some (.number (.posInt index))) (hnew : index ∉ s.active)
    (hslab : expandPurse.Costs (· = { s with active := insert index s.active }) can
      (expandSlab parsed (expandSlabs parsed levels) index) result cost) (t : ExpandState) (r : Value F) :
    (expandSlabs parsed (levels + 1) value).outcome s = (.ok r, t) ↔
      can ∧ cost ≤ expandPurse.left s ∧ r = result ∧ t = expandPurse.spend cost s := by
  have herase : (insert index s.active).erase index = s.active := Finset.erase_insert hnew
  have hleave : ∀ n, { expandPurse.spend n { s with active := insert index s.active } with
      active := (insert index s.active).erase index } = expandPurse.spend n s := fun n => by rw [herase]; rfl
  rw [expandSlabs_placeholder_ok hplaceholder]
  constructor
  · rintro ⟨-, u, hu, rfl⟩
    obtain ⟨hcan, hcost, hr, rfl⟩ := (hslab _ u r rfl).mp hu
    exact ⟨hcan, hcost, hr, hleave cost⟩
  · rintro ⟨hcan, hcost, hr, rfl⟩
    exact ⟨hnew, _, (hslab _ _ r rfl).mpr ⟨hcan, hcost, hr, rfl⟩, (hleave cost).symm⟩

/-- **A stored value expands to the value** for what it is charged, if the levels suffice. -/
theorem expandSlabs_costs (hcount : CountsElements parsed) : ∀ (levels : ℕ) {stored : Stored F},
    StoredIn parsed stored → expandPurse.Costs (Unreached parsed stored.root) (stored.levels ≤ levels)
      (expandSlabs parsed levels stored.root) stored.value stored.charge := by
  intro levels
  induction levels with
  | zero =>
    intro stored _ s t r _
    refine iff_of_false (fun h => by cases h) fun h => ?_
    have := levels_pos stored
    omega
  | succ levels ih =>
    intro stored hstored
    have hspend : ∀ n s, Unreached parsed stored.root s → Unreached parsed stored.root (expandPurse.spend n s) :=
      fun _ _ h => h
    cases hstored with
    | @scalar value hscalar =>
      change expandPurse.Costs _ (1 ≤ levels + 1) (expandSlabs parsed (levels + 1) value) value 1
      rw [expandSlabs_scalar levels hscalar]
      have hcosts := (consumeExpanded_costs 1).seq hspend (Purse.costs_pure value)
      exact hcosts.congr (by simp)
    | @array items hitems =>
      have hparts : ∀ item ∈ items, expandPurse.Costs (Unreached parsed (Stored.array items).root)
          (item.levels ≤ levels) (expandSlabs parsed levels item.root) item.value item.charge := by
        intro item hitem
        refine (ih (hitems item hitem)).weaken fun s hs j hreaches => hs j ?_
        rw [Stored.root_array, reaches_array]
        exact ⟨item.root, List.mem_map_of_mem hitem, hreaches⟩
      have hcosts := (consumeExpanded_costs items.length).seq hspend
        ((Purse.costs_mapM hspend hparts).map hspend Value.array)
      rw [Stored.levels_array, Stored.charge_array, Stored.value_array, List.length_map]
      nth_rewrite 2 [Stored.root_array]
      rw [expandSlabs_array, List.length_map, List.mapM_map]
      refine hcosts.congr ?_
      rw [true_and, Nat.add_comm 1, Nat.add_le_add_iff_right, foldr_max_le, List.forall_mem_map]
    | @object fields hnames hfields =>
      have hnone : (Value.object (fields.map fun field => (field.1, field.2.root))).placeholder = none := by
        rw [← Stored.root_object]
        exact placeholder_root_object hnames
      have hparts : ∀ field ∈ fields, expandPurse.Costs (Unreached parsed (Stored.object fields).root)
          (field.2.levels ≤ levels) (do return (field.1, ← expandSlabs parsed levels field.2.root))
          (field.1, field.2.value) field.2.charge := by
        intro field hfield
        refine Purse.Costs.map hspend (Prod.mk field.1)
          ((ih (hfields field hfield)).weaken fun s hs j hreaches => hs j ?_)
        rw [Stored.root_object, reaches_object hnone]
        exact ⟨(field.1, field.2.root), List.mem_map_of_mem hfield, hreaches⟩
      have hcosts := (consumeExpanded_costs fields.length).seq hspend
        ((Purse.costs_mapM hspend hparts).map hspend Value.object)
      rw [Stored.levels_object, Stored.charge_object, Stored.value_object, List.length_map]
      nth_rewrite 2 [Stored.root_object]
      rw [expandSlabs_object levels hnone, List.length_map, List.mapM_map]
      refine hcosts.congr ?_
      rw [true_and, Nat.add_comm 1, Nat.add_le_add_iff_right, foldr_max_le, List.forall_mem_map]
    | @json index slab content hslab htype hjson hcontent =>
      intro s t r hs
      have hplaceholder : (Stored.json index content).root.placeholder = some (.number (.posInt index)) := rfl
      -- the slab is not active, and no slab inside leads back to it
      have hnew : index ∉ s.active := hs index ((reaches_placeholder hplaceholder).mpr (Or.inl rfl))
      have hinside : Unreached parsed content.root { s with active := insert index s.active } := by
        intro j hreaches hmem
        rcases Finset.mem_insert.mp hmem with rfl | hmem
        · -- the slab would lead back to itself
          obtain ⟨k, hmentions, hpath⟩ := hreaches
          have hrefers : Refers parsed j k := ⟨slab, content.root, hslab, htype, hjson, hmentions⟩
          exact (StoredIn.json hslab htype hjson hcontent).not_transGen (le_refl _) rfl
            (Relation.TransGen.head' hrefers hpath)
        · exact hs j ((reaches_placeholder hplaceholder).mpr
            (Or.inr ⟨slab, content.root, hslab, htype, hjson, hreaches⟩)) hmem
      have hcosts := placeholder_costs levels hplaceholder hnew (by
        rw [expandSlab_json hslab htype hjson]
        exact (ih hcontent).weaken fun u hu => hu ▸ hinside) t r
      rw [hcosts]
      exact and_congr_left' Nat.succ_le_succ_iff.symm
    | @typed index slab kind values hslab htype hvalues =>
      intro s t r hs
      have hplaceholder : (Stored.typed index values).root.placeholder = some (.number (.posInt index)) := rfl
      have hnew : index ∉ s.active := hs index ((reaches_placeholder hplaceholder).mpr (Or.inl rfl))
      -- the budget is charged with the count in the file
      have hlength : parsed.elementCount slab = values.length := by
        rw [hcount slab kind htype, (slabValues_ok hvalues).1]
      have hnumbers : expandPurse.Costs (fun _ => True) (True ∧ True) (do
          consumeExpanded values.length
          return Value.array values) (.array values) (values.length + 0) :=
        (consumeExpanded_costs values.length).seq (fun _ _ h => h) (Purse.costs_pure (Value.array values))
      have hcosts := placeholder_costs levels hplaceholder hnew (by
        rw [expandSlab_typed hslab htype hvalues, hlength]
        exact hnumbers.weaken fun _ _ => trivial) t r
      rw [hcosts]
      exact and_congr_left' (iff_of_true ⟨trivial, trivial⟩ (Nat.succ_le_succ (Nat.zero_le levels)))

end

end RustProfile
