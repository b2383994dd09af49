import RustProfile.SlabsSound

/-!
# The limits of expansion

An expansion stays within its budget, and it meets a cycle only when there is
one. Plain JSON is held to the same limits, but counted in another way.
-/

namespace RustProfile

section
variable {F : Type} [F64 F] [FloatBits F] {parsed : ParsedFile F}

/-! ## Cycles -/

omit [F64 F] [FloatBits F] in
theorem consumeExpanded_error {count : ℕ} {s t : ExpandState} {e : ExpandError}
    (h : (consumeExpanded count).outcome s = (.error e, t)) : e = .budget := by
  rw [consumeExpanded_outcome] at h
  split at h
  · cases h
  · cases h
    rfl

theorem expandSlab_cyclic {expand : Value F → Attempt ExpandError ExpandState (Value F)} {index i : UInt64}
    {s t : ExpandState} (h : (expandSlab parsed expand index).outcome s = (.error (.cyclic i), t)) :
    ∃ slab content, parsed.slabAt index = .ok slab ∧ slab.slabType = .json ∧
      parsed.fromSlice slab.bytes = some content ∧ (expand content).outcome s = (.error (.cyclic i), t) := by
  unfold expandSlab at h
  rcases Attempt.bind_error.mp h with hread | ⟨slab, u, hread, hslab⟩
  · rw [Attempt.outcome_ofExcept] at hread
    cases hat : parsed.slabAt index with
    | error text => rw [hat] at hread; cases hread
    | ok slab => rw [hat] at hread; cases hread
  obtain ⟨hfound, rfl⟩ := Attempt.ofExcept_ok.mp hread
  have hslabAt : parsed.slabAt index = .ok slab := by
    cases hat : parsed.slabAt index with
    | error text => rw [hat] at hfound; cases hfound
    | ok slab' => rw [hat] at hfound; cases hfound; rfl
  cases htype : slab.slabType with
  | json =>
    rw [htype] at hslab
    rcases Attempt.bind_error.mp hslab with hjson | ⟨content, v, hjson, hexpand⟩
    · cases Attempt.ofOption_error hjson
    · obtain ⟨hcontent, rfl⟩ := Attempt.ofOption_ok.mp hjson
      exact ⟨slab, content, hslabAt, htype, hcontent, hexpand⟩
  | typed kind =>
    rw [htype] at hslab
    rcases Attempt.bind_error.mp hslab with hconsume | ⟨⟨⟩, v, -, hslab⟩
    · cases consumeExpanded_error hconsume
    · rcases Attempt.bind_error.mp hslab with hvalues | ⟨values, w, -, hlast⟩
      · rw [Attempt.outcome_ofExcept] at hvalues
        cases slabValues_error (congrArg Prod.fst hvalues)
      · rw [Attempt.outcome_pure] at hlast
        cases hlast

omit [F64 F] [FloatBits F] in
theorem Cyclic.of_reaches {value part : Value F} (h : ∀ i, Reaches parsed part i → Reaches parsed value i)
    (hcyclic : Cyclic parsed part) : Cyclic parsed value := by
  obtain ⟨i, hreaches, hcycle⟩ := hcyclic
  exact ⟨i, h i hreaches, hcycle⟩

theorem expandSlabs_placeholder_error {levels : ℕ} {value inner : Value F}
    (hplaceholder : value.placeholder = some inner)
    {s t : ExpandState} {e : ExpandError} (h : (expandSlabs parsed (levels + 1) value).outcome s = (.error e, t)) :
    e = .placeholder ∨ ∃ index, inner = .number (.posInt index) ∧ (e = .cyclic index ∧ index ∈ s.active ∨
      (expandSlab parsed (expandSlabs parsed levels) index).outcome
        { s with active := insert index s.active } = (.error e, t)) := by
  rw [expandSlabs_placeholder levels hplaceholder] at h
  rcases Attempt.bind_error.mp h with hindex | ⟨index, u, hindex, hrest⟩
  · exact Or.inl (Attempt.ofOption_error hindex)
  obtain ⟨hinner, rfl⟩ := Attempt.ofOption_ok.mp hindex
  refine Or.inr ⟨index, asU64_eq_some hinner, ?_⟩
  rcases Attempt.bind_error.mp hrest with henter | ⟨⟨⟩, v, henter, hrest⟩
  · rw [enter_outcome] at henter
    split at henter
    · rename_i hmem
      cases henter
      exact Or.inl ⟨rfl, hmem⟩
    · cases henter
  obtain ⟨-, rfl⟩ := enter_ok henter
  rcases Attempt.bind_error.mp hrest with hslab | ⟨expanded, w, -, hrest⟩
  · exact Or.inr hslab
  · rw [Attempt.outcome_bind, leave_outcome] at hrest
    cases hrest

/-- A part fails, with the same slabs being expanded. -/
theorem expandSlabs_array_error {levels : ℕ} {values : List (Value F)} {s t : ExpandState} {e : ExpandError}
    (h : (expandSlabs parsed (levels + 1) (.array values)).outcome s = (.error e, t)) :
    e = .budget ∨ ∃ part ∈ values, ∃ u, u.active = s.active ∧
      (expandSlabs parsed levels part).outcome u = (.error e, t) := by
  rw [expandSlabs_array] at h
  rcases Attempt.bind_error.mp h with hconsume | ⟨⟨⟩, u, hconsume, hrest⟩
  · exact Or.inl (consumeExpanded_error hconsume)
  rcases Attempt.bind_error.mp hrest with hvalues | ⟨out, v, -, hlast⟩
  · have hstep : ∀ value ∈ values, ∀ (s' t' : ExpandState) (b : Value F), s'.active = s.active →
        (expandSlabs parsed levels value).outcome s' = (.ok b, t') → t'.active = s.active :=
      fun _ _ _ _ _ hs' hb => (expandable_of_ok hb).1.trans hs'
    exact Or.inr (Attempt.mapM_error hstep (consumeExpanded_ok hconsume) hvalues)
  · cases hlast

theorem expandSlabs_object_error {levels : ℕ} {fields : List (String × Value F)}
    (hplaceholder : (Value.object fields).placeholder = none) {s t : ExpandState} {e : ExpandError}
    (h : (expandSlabs parsed (levels + 1) (.object fields)).outcome s = (.error e, t)) :
    e = .budget ∨ ∃ field ∈ fields, ∃ u, u.active = s.active ∧
      (expandSlabs parsed levels field.2).outcome u = (.error e, t) := by
  rw [expandSlabs_object levels hplaceholder] at h
  rcases Attempt.bind_error.mp h with hconsume | ⟨⟨⟩, u, hconsume, hrest⟩
  · exact Or.inl (consumeExpanded_error hconsume)
  rcases Attempt.bind_error.mp hrest with hfields | ⟨out, v, -, hlast⟩
  · have hstep : ∀ field ∈ fields, ∀ (s' t' : ExpandState) (b : String × Value F), s'.active = s.active →
        Attempt.outcome (do return (field.1, ← expandSlabs parsed levels field.2)) s' = (.ok b, t') →
          t'.active = s.active := by
      intro field _ s' t' b hs' hb
      obtain ⟨r, w, hr, hb⟩ := Attempt.bind_ok.mp hb
      cases hb
      exact (expandable_of_ok hr).1.trans hs'
    obtain ⟨field, hmem, w, hw, hfails⟩ := Attempt.mapM_error hstep (consumeExpanded_ok hconsume) hfields
    rcases Attempt.bind_error.mp hfails with hfails | ⟨r, x, -, hlast⟩
    · exact Or.inr ⟨field, hmem, w, hw, hfails⟩
    · cases hlast
  · cases hlast

/-- **What is taken for a cycle is one**, or leads back to a slab that was being expanded. -/
theorem cyclic_of_error : ∀ {levels : ℕ} {value : Value F} {s t : ExpandState} {i : UInt64},
    (expandSlabs parsed levels value).outcome s = (.error (.cyclic i), t) →
      (i ∈ s.active ∧ Reaches parsed value i) ∨ Cyclic parsed value := by
  intro levels
  induction levels with
  | zero =>
    intro value s t i h
    cases h
  | succ levels ih =>
    intro value s t i h
    -- a part that fails says the same of the whole
    have hpart : ∀ {part : Value F} {u : ExpandState}, (∀ j, Reaches parsed part j → Reaches parsed value j) →
        u.active = s.active → (expandSlabs parsed levels part).outcome u = (.error (.cyclic i), t) →
          (i ∈ s.active ∧ Reaches parsed value i) ∨ Cyclic parsed value := by
      intro part u hreaches hu hfails
      rcases ih hfails with ⟨hactive, hi⟩ | hcyclic
      · rw [hu] at hactive
        exact Or.inl ⟨hactive, hreaches i hi⟩
      · exact Or.inr (hcyclic.of_reaches hreaches)
    cases hplaceholder : value.placeholder with
    | some inner =>
      rcases expandSlabs_placeholder_error hplaceholder h with hinvalid | ⟨index, rfl, ⟨hsame, hmem⟩ | hslab⟩
      · cases hinvalid
      · cases hsame
        exact Or.inl ⟨hmem, (reaches_placeholder hplaceholder).mpr (Or.inl rfl)⟩
      obtain ⟨slab, content, hslabAt, htype, hjson, hcontent⟩ := expandSlab_cyclic hslab
      have hreaches : ∀ j, Reaches parsed content j → Reaches parsed value j := fun j hj =>
        (reaches_placeholder hplaceholder).mpr (Or.inr ⟨slab, content, hslabAt, htype, hjson, hj⟩)
      rcases ih hcontent with ⟨hactive, hi⟩ | hcyclic
      · rcases Finset.mem_insert.mp hactive with rfl | hactive
        · -- the slab leads back to itself
          obtain ⟨k, hmentions, hpath⟩ := hi
          refine Or.inr ⟨i, (reaches_placeholder hplaceholder).mpr (Or.inl rfl), ?_⟩
          exact Relation.TransGen.head' ⟨slab, content, hslabAt, htype, hjson, hmentions⟩ hpath
        · exact Or.inl ⟨hactive, hreaches i hi⟩
      · exact Or.inr (hcyclic.of_reaches hreaches)
    | none =>
      by_cases hscalar : value.isScalar = true
      · rw [expandSlabs_scalar levels hscalar] at h
        rcases Attempt.bind_error.mp h with hconsume | ⟨⟨⟩, u, -, hlast⟩
        · cases consumeExpanded_error hconsume
        · cases hlast
      cases value with
      | array values =>
        rcases expandSlabs_array_error h with hbudget | ⟨part, hmem, u, hu, hfails⟩
        · cases hbudget
        · exact hpart (fun j hj => reaches_array.mpr ⟨part, hmem, hj⟩) hu hfails
      | object fields =>
        rcases expandSlabs_object_error hplaceholder h with hbudget | ⟨field, hmem, u, hu, hfails⟩
        · cases hbudget
        · exact hpart (fun j hj => (reaches_object hplaceholder).mpr ⟨field, hmem, hj⟩) hu hfails
      | _ => exact absurd rfl hscalar

/-! ## How large the value is -/

omit [F64 F] [FloatBits F] in
theorem sum_map_le {α : Type} {f g : α → ℕ} : ∀ {items : List α}, (∀ a ∈ items, f a ≤ g a + 1) →
    (items.map f).sum ≤ (items.map g).length + (items.map g).sum
  | [], _ => by simp
  | a :: items, h => by
    obtain ⟨hfirst, hrest⟩ := List.forall_mem_cons.mp h
    have hle := sum_map_le hrest
    simp only [List.map_cons, List.sum_cons, List.length_cons]
    omega

omit [F64 F] [FloatBits F] in
theorem sum_map_add {α : Type} {f g h : α → ℕ} {items : List α} (hf : ∀ a ∈ items, f a = g a + h a) :
    (items.map f).sum = (items.map g).sum + (items.map h).sum := by
  rw [List.map_congr_left hf, List.sum_map_add]

omit [F64 F] [FloatBits F] in
theorem sum_map_scalar {f : Value F → ℕ} {values : List (Value F)}
    (hf : ∀ value : Value F, value.isScalar = true → f value = 1) (h : ∀ value ∈ values, value.isScalar = true) :
    (values.map f).sum = values.length := by
  rw [List.map_congr_left fun value hvalue => hf value (h value hvalue), List.map_const', List.sum_replicate,
    nsmul_one, Nat.cast_id]

theorem StoredIn.nodes_le {stored : Stored F} (h : StoredIn parsed stored) :
    stored.value.nodes ≤ stored.charge + 1 := by
  induction h with
  | scalar hscalar => exact (Value.nodes_scalar hscalar).trans_le (Nat.succ_le_succ (Nat.zero_le 1))
  | @array items _ ih =>
    have hle := sum_map_le ih
    rw [Stored.value_array, Value.nodes_array, Stored.charge_array, List.map_map]
    change 1 + (items.map fun item => item.value.nodes).sum ≤ _
    omega
  | @object fields _ _ ih =>
    have hle := sum_map_le ih
    rw [Stored.value_object, Value.nodes_object, Stored.charge_object, List.map_map]
    change 1 + (fields.map fun field => field.2.value.nodes).sum ≤ _
    omega
  | json _ _ _ _ ih => exact ih
  | @typed index slab kind values _ _ hvalues =>
    change (Value.array values).nodes ≤ values.length + 1
    rw [Value.nodes_array, sum_map_scalar (fun _ => Value.nodes_scalar) (slabValues_ok hvalues).2, Nat.add_comm]

theorem StoredIn.plain {stored : Stored F} (h : StoredIn parsed stored) : stored.value.Plain := by
  induction h with
  | scalar hscalar => exact Value.Plain.scalar hscalar
  | @array items _ ih =>
    rw [Stored.value_array]
    exact Value.Plain.array (List.forall_mem_map.mpr ih)
  | @object fields hnames _ ih =>
    rw [Stored.value_object]
    refine Value.Plain.object ?_ (List.forall_mem_map.mpr ih)
    rw [List.map_map]
    exact hnames
  | json _ _ _ _ ih => exact ih
  | typed _ _ hvalues =>
    exact Value.Plain.array fun value hvalue => Value.Plain.scalar ((slabValues_ok hvalues).2 value hvalue)

/-- **Expansion is substitution**, within the budget, and rejects the cycles and nothing else as cyclic. -/
theorem expandSlabs_substitutes (hcount : CountsElements parsed) (levels : ℕ) (value : Value F) (s : ExpandState) :
    (∀ result t, (expandSlabs parsed levels value).outcome s = (.ok result, t) →
      (∃ stored, StoredIn parsed stored ∧ stored.root = value ∧ stored.value = result) ∧ result.Plain ∧
        (s.remaining ≤ maxExpandedValues → result.nodes ≤ maxExpandedValues + 1) ∧ t.active = s.active) ∧
    (Cyclic parsed value → ∀ result t, (expandSlabs parsed levels value).outcome s ≠ (.ok result, t)) ∧
    (∀ i t, (expandSlabs parsed levels value).outcome s = (.error (.cyclic i), t) → s.active = ∅ →
      Cyclic parsed value) ∧
    ∀ stored, StoredIn parsed stored → stored.root = value → s.active = ∅ →
      ((∃ t, (expandSlabs parsed levels value).outcome s = (.ok stored.value, t)) ↔
        stored.levels ≤ levels ∧ stored.charge ≤ s.remaining) := by
  refine ⟨fun result t h => ?_, fun hcyclic result t h => ?_, fun i t h hactive => ?_,
    fun stored hstored hroot hactive => ?_⟩
  · obtain ⟨hactive, ⟨stored, hstored, rfl⟩, hunreached⟩ := expandable_of_ok h
    obtain ⟨-, hcharge, rfl, -⟩ := (expandSlabs_costs hcount levels hstored s t result hunreached).mp h
    refine ⟨⟨stored, hstored, rfl, rfl⟩, hstored.plain, fun hremaining => ?_, hactive⟩
    have hnodes := hstored.nodes_le
    change stored.charge ≤ s.remaining at hcharge
    omega
  · obtain ⟨-, ⟨stored, hstored, rfl⟩, -⟩ := expandable_of_ok h
    exact hstored.not_cyclic hcyclic
  · rcases cyclic_of_error h with ⟨hmem, -⟩ | hcyclic
    · rw [hactive] at hmem
      exact absurd hmem (Finset.notMem_empty i)
    · exact hcyclic
  · subst hroot
    have hunreached : Unreached parsed stored.root s := by
      intro j _
      rw [hactive]
      exact Finset.notMem_empty j
    have hcosts := fun t => expandSlabs_costs hcount levels hstored s t stored.value hunreached
    constructor
    · rintro ⟨t, h⟩
      obtain ⟨hlevels, hcharge, -, -⟩ := (hcosts t).mp h
      exact ⟨hlevels, hcharge⟩
    · rintro ⟨hlevels, hcharge⟩
      exact ⟨_, (hcosts _).mpr ⟨hlevels, hcharge, rfl, rfl⟩⟩

end

namespace SlabLimits

/-- Floats that are whole, for files that have none. -/
scoped instance wholeFloats : F64 ℤ where
  zero := 0
  add := Int.add
  isNegative x := decide (x < 0)
  isFinite _ := true
  ofInt n := n
  display := toString

scoped instance wholeFloatBits : FloatBits ℤ where
  fromF32 _ := 0
  fromF64 _ := 0

def twoSlabs : ParsedFile ℤ where
  slabAt index :=
    if index = 0 then .ok ⟨.json, [91, 49, 93]⟩
    else if index = 1 then .ok ⟨.typed .uint8, [7, 8]⟩
    else .error "slab index out of bounds"
  elementCount slab :=
    match slab.slabType with
    | .json => 1
    | .typed kind => slab.bytes.length / kind.size
  fromSlice bytes := if bytes = [91, 49, 93] then some (.array [.number (.posInt 1)]) else none

theorem twoSlabs_counts : CountsElements twoSlabs := by
  intro slab kind htype
  simp only [twoSlabs, htype]

end SlabLimits

open SlabLimits in
theorem expandSlabs_substitutes_twoSlabs :
    Value.Plain (Value.array [.array [.number (.posInt 1)], .array [.number (.posInt 7), .number (.posInt 8)],
      .array [.number (.posInt 1)]] : Value ℤ) :=
  ((expandSlabs_substitutes twoSlabs_counts viewerLevels
    (.array [.placeholderOf 0, .placeholderOf 1, .placeholderOf 0]) {}).1 _
    { remaining := maxExpandedValues - 9 } rfl).2.1

open SlabLimits in
/-- After an error the slab is still there. -/
theorem active_kept_after_error : ¬ ∀ (value : Value ℤ) (result : Except ExpandError (Value ℤ)) (s t : ExpandState),
    (expandSlabs twoSlabs viewerLevels value).outcome s = (result, t) → t.active = s.active := by
  intro h
  have hkept := h (.placeholderOf 2) (.error (.slabAt "slab index out of bounds")) {} { active := {2} } rfl
  exact absurd hkept (by decide)

/-! ## Plain JSON -/

section
variable {F : Type} [F64 F] [FloatBits F] {parsed : ParsedFile F}

/-- Plain JSON is charged once more for each number of a typed slab. -/
theorem StoredIn.charge_value {stored : Stored F} (h : StoredIn parsed stored) :
    stored.value.charge = stored.charge + stored.typedElements := by
  induction h with
  | scalar hscalar => exact Value.charge_scalar hscalar
  | @array items _ ih =>
    have hsum := sum_map_add ih
    rw [Stored.value_array, Value.charge_array, Stored.charge_array, Stored.typedElements_array, List.map_map,
      List.length_map, List.length_map]
    change items.length + (items.map fun item => item.value.charge).sum = _
    omega
  | @object fields _ _ ih =>
    have hsum := sum_map_add ih
    rw [Stored.value_object, Value.charge_object, Stored.charge_object, Stored.typedElements_object, List.map_map,
      List.length_map, List.length_map]
    change fields.length + (fields.map fun field => field.2.value.charge).sum = _
    omega
  | json _ _ _ _ ih => exact ih
  | @typed index slab kind values _ _ hvalues =>
    change (Value.array values).charge = values.length + values.length
    rw [Value.charge_array, sum_map_scalar (fun _ => Value.charge_scalar) (slabValues_ok hvalues).2, List.length_map]

def validatePurse : Purse ℕ where
  left := id
  spend n remaining := remaining - n
  left_spend _ _ := rfl
  spend_spend _ _ _ := Nat.sub_sub _ _ _
  spend_zero _ := rfl

omit [F64 F] [FloatBits F] in
theorem consumeValidated_costs (count : ℕ) :
    validatePurse.Costs (fun _ => True) True (consumeValidated count) () count := by
  intro s t r _
  have houtcome : (consumeValidated count).outcome s =
      if count ≤ s then (.ok (), s - count) else (.error .budget, s) := by
    unfold consumeValidated consume
    rw [Attempt.outcome_bind, Attempt.outcome_get]
    dsimp only
    rw [Attempt.outcome_bind, Attempt.outcome_ofExcept]
    by_cases h : count ≤ s
    · rw [if_pos h, if_pos h]
      rfl
    · rw [if_neg h, if_neg h]
  rw [houtcome]
  change _ ↔ True ∧ count ≤ s ∧ r = () ∧ t = s - count
  by_cases h : count ≤ s
  · simp [h, eq_comm]
  · simp [h]

omit [F64 F] [FloatBits F] in
theorem Value.levels_pos (value : Value F) : 0 < value.levels := by
  by_cases hscalar : value.isScalar = true
  · rw [Value.levels_scalar hscalar]
    exact Nat.one_pos
  cases value with
  | array values => rw [Value.levels_array]; omega
  | object fields => rw [Value.levels_object]; omega
  | _ => exact absurd rfl hscalar

omit [F64 F] [FloatBits F] in
/-- **A validation costs what the value is charged**, if the levels suffice. -/
theorem validateValueBudget_costs : ∀ (levels : ℕ) (value : Value F),
    validatePurse.Costs (fun _ => True) (value.levels ≤ levels) (validateValueBudget levels value) () value.charge := by
  intro levels
  have hspend : ∀ n s, (fun _ => True) s → (fun _ : ℕ => True) (validatePurse.spend n s) := fun _ _ _ => trivial
  induction levels with
  | zero =>
    intro value s t r _
    refine iff_of_false (fun h => by cases h) fun h => ?_
    have := value.levels_pos
    omega
  | succ levels ih =>
    intro value
    by_cases hscalar : value.isScalar = true
    · rw [Value.levels_scalar hscalar, Value.charge_scalar hscalar]
      have hone : validateValueBudget (levels + 1) value = consumeValidated 1 := by
        cases value with
        | array _ => cases hscalar
        | object _ => cases hscalar
        | _ => rfl
      rw [hone]
      exact (consumeValidated_costs 1).congr (by simp)
    cases value with
    | array values =>
      have hcosts := (consumeValidated_costs values.length).seq hspend
        (Purse.costs_forM hspend fun value (_ : value ∈ values) => ih value)
      rw [Value.levels_array, Value.charge_array, List.length_map]
      refine hcosts.congr ?_
      rw [true_and, Nat.add_comm 1, Nat.add_le_add_iff_right, foldr_max_le, List.forall_mem_map]
    | object fields =>
      have hcosts := (consumeValidated_costs fields.length).seq hspend
        (Purse.costs_forM hspend fun field (_ : field ∈ fields) => ih field.2)
      rw [Value.levels_object, Value.charge_object, List.length_map]
      refine hcosts.congr ?_
      rw [true_and, Nat.add_comm 1, Nat.add_le_add_iff_right, foldr_max_le, List.forall_mem_map]
    | _ => exact absurd rfl hscalar

/-! ## The two formats -/

/-- A viewer's JSLB path takes the root. -/
def AcceptsSlabs (parsed : ParsedFile F) (root : Value F) : Prop :=
  ∃ result t, (expandSlabs parsed viewerLevels root).outcome {} = (.ok result, t)

def AcceptsJson (value : Value F) : Prop :=
  ∃ t, (validateValueBudget viewerLevels value).outcome maxExpandedValues = (.ok (), t)

/-- The placeholders alone nest the value too deep. -/
def DeepenedBySlabs (stored : Stored F) : Prop :=
  stored.value.levels ≤ viewerLevels ∧ stored.charge + stored.typedElements ≤ maxExpandedValues ∧
    viewerLevels < stored.levels

/-- Only because numbers are in typed slabs do they not nest or weigh too much. -/
def RelievedBySlabs (stored : Stored F) : Prop :=
  stored.levels ≤ viewerLevels ∧ stored.charge ≤ maxExpandedValues ∧
    (viewerLevels < stored.value.levels ∨ maxExpandedValues < stored.charge + stored.typedElements)

theorem acceptsSlabs_iff (hcount : CountsElements parsed) {stored : Stored F} (h : StoredIn parsed stored) :
    AcceptsSlabs parsed stored.root ↔ stored.levels ≤ viewerLevels ∧ stored.charge ≤ maxExpandedValues := by
  have hunreached : Unreached parsed stored.root {} := fun j _ => Finset.notMem_empty j
  have hcosts := fun t result => expandSlabs_costs hcount viewerLevels h {} t result hunreached
  constructor
  · rintro ⟨result, t, hok⟩
    obtain ⟨hlevels, hcharge, -, -⟩ := (hcosts t result).mp hok
    exact ⟨hlevels, hcharge⟩
  · rintro ⟨hlevels, hcharge⟩
    exact ⟨_, _, (hcosts _ _).mpr ⟨hlevels, hcharge, rfl, rfl⟩⟩

omit [F64 F] [FloatBits F] in
theorem acceptsJson_iff (value : Value F) :
    AcceptsJson value ↔ value.levels ≤ viewerLevels ∧ value.charge ≤ maxExpandedValues := by
  have hcosts := fun t => validateValueBudget_costs viewerLevels value maxExpandedValues t () trivial
  constructor
  · rintro ⟨t, hok⟩
    obtain ⟨hlevels, hcharge, -, -⟩ := (hcosts t).mp hok
    exact ⟨hlevels, hcharge⟩
  · rintro ⟨hlevels, hcharge⟩
    exact ⟨_, (hcosts _).mpr ⟨hlevels, hcharge, rfl, rfl⟩⟩

/-- **The two formats have the same limits** but for what placeholders add and what typed slabs save. -/
theorem formats_agree_iff (hcount : CountsElements parsed) {stored : Stored F} (h : StoredIn parsed stored) :
    (AcceptsSlabs parsed stored.root ↔ AcceptsJson stored.value) ↔
      ¬ DeepenedBySlabs stored ∧ ¬ RelievedBySlabs stored := by
  rw [acceptsSlabs_iff hcount h, acceptsJson_iff, h.charge_value]
  unfold DeepenedBySlabs RelievedBySlabs
  omega

end

open SlabLimits in
theorem formats_agree_iff_twoSlabs :
    ¬ DeepenedBySlabs (.json 0 (.array [.scalar (.number (.posInt 1))]) : Stored ℤ) := by
  have hstored : StoredIn twoSlabs (.json 0 (.array [.scalar (.number (.posInt 1))])) :=
    StoredIn.json rfl rfl rfl (StoredIn.array (List.forall_mem_singleton.mpr (StoredIn.scalar rfl)))
  exact ((formats_agree_iff twoSlabs_counts hstored).mp
    (iff_of_true ⟨_, { remaining := maxExpandedValues - 2 }, rfl⟩ ⟨maxExpandedValues - 2, rfl⟩)).1

namespace SlabLimits

def deepArray : ℕ → Stored ℤ
  | 0 => .scalar .null
  | depth + 1 => .array [deepArray depth]

def deepSlab : ParsedFile ℤ where
  slabAt _ := .ok ⟨.json, []⟩
  elementCount := twoSlabs.elementCount
  fromSlice _ := some (deepArray 64).root

theorem deepArray_stored (depth : ℕ) : StoredIn deepSlab (deepArray depth) := by
  induction depth with
  | zero => exact StoredIn.scalar rfl
  | succ depth ih => exact StoredIn.array (List.forall_mem_singleton.mpr ih)

theorem levels_deepArray (depth : ℕ) :
    (deepArray depth).levels = depth + 1 ∧ (deepArray depth).value.levels = depth + 1 := by
  induction depth with
  | zero => exact ⟨rfl, rfl⟩
  | succ depth ih =>
    rw [deepArray, Stored.levels_array, Stored.value_array, Value.levels_array]
    simp only [List.map_cons, List.map_nil, List.foldr_cons, List.foldr_nil, ih]
    omega

theorem charge_deepArray (depth : ℕ) : (deepArray depth).value.charge = depth + 1 := by
  induction depth with
  | zero => rfl
  | succ depth ih =>
    rw [deepArray, Stored.value_array, Value.charge_array]
    simp only [List.map_cons, List.map_nil, List.length_cons, List.length_nil, List.sum_cons, List.sum_nil, ih]
    omega

end SlabLimits

open SlabLimits in
/-- As plain JSON the value is accepted; in a slab it is one placeholder too deep. -/
theorem placeholder_counts_as_level : ¬ ∀ stored, StoredIn deepSlab stored →
    (AcceptsSlabs deepSlab stored.root ↔ AcceptsJson stored.value) := by
  intro hsame
  have hstored : StoredIn deepSlab (.json 0 (deepArray 64)) := StoredIn.json rfl rfl rfl (deepArray_stored 64)
  have haccepts : AcceptsJson (Stored.json 0 (deepArray 64)).value :=
    (acceptsJson_iff _).mpr ⟨(levels_deepArray 64).2.le, (charge_deepArray 64).trans_le (by decide)⟩
  have hcount : CountsElements deepSlab := twoSlabs_counts
  have hlevels := ((acceptsSlabs_iff hcount hstored).mp ((hsame _ hstored).mpr haccepts)).1
  change (deepArray 64).levels + 1 ≤ 65 at hlevels
  rw [(levels_deepArray 64).1] at hlevels
  omega

end RustProfile
