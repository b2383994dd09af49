import Mathlib.Data.List.AList
import Mathlib.Algebra.BigOperators.Finprod
import Mathlib.Algebra.Order.BigOperators.Group.List

/-!
# Finite maps

A hash map is a list of entries with distinct keys. Its iteration order is
unspecified: code that iterates takes an `IterOrder`, and what is proved of it
holds for each.
-/

/-- A finite map from `K` to `V`. -/
abbrev Table (K V : Type*) := AList fun _ : K => V

/-- An order in which the entries of a hash map are visited. -/
structure IterOrder where
  order : ∀ {α : Type}, List α → List α
  perm : ∀ {α : Type} (l : List α), (order l).Perm l

/-- The order in which the entries are stored. -/
def IterOrder.stored : IterOrder := ⟨fun l => l, fun l => List.Perm.refl l⟩

section
variable {K V : Type*}

def AList.size (m : Table K V) : ℕ := m.entries.length

def AList.retain (p : K → V → Bool) (m : Table K V) : Table K V :=
  ⟨m.entries.filter fun e => p e.1 e.2, m.nodupKeys.sublist List.filter_sublist⟩

def AList.mapValues (f : V → V) (m : Table K V) : Table K V :=
  ⟨m.entries.map fun e => ⟨e.1, f e.2⟩, by
    rw [List.NodupKeys, List.keys, List.map_map]
    exact m.nodupKeys⟩

end

namespace Table

section
variable {K V : Type*} [DecidableEq K]

theorem mem_entries {m : Table K V} {k : K} {v : V} : (⟨k, v⟩ : Σ _ : K, V) ∈ m.entries ↔ m.lookup k = some v :=
  AList.mem_lookup_iff.symm

theorem mem_iff {m : Table K V} {k : K} : k ∈ m ↔ ∃ v, m.lookup k = some v := by
  rw [← AList.lookup_isSome, Option.isSome_iff_exists]

theorem notMem_iff {m : Table K V} {k : K} : k ∉ m ↔ m.lookup k = none := AList.lookup_eq_none.symm

theorem mem_of_lookup {m : Table K V} {k : K} {v : V} (h : m.lookup k = some v) : k ∈ m := mem_iff.mpr ⟨v, h⟩

theorem lookup_insert (m : Table K V) (k k' : K) (v : V) :
    (m.insert k v).lookup k' = if k' = k then some v else m.lookup k' := by
  split
  · rename_i h; subst h; exact AList.lookup_insert _
  · rename_i h; exact AList.lookup_insert_ne h

theorem lookup_erase (m : Table K V) (k k' : K) :
    (m.erase k).lookup k' = if k' = k then none else m.lookup k' := by
  split
  · rename_i h; subst h; exact AList.lookup_erase _ _
  · rename_i h; exact AList.lookup_erase_ne h

/-- After an insertion an entry is the new one, or one of another key that was there before. -/
theorem lookup_insert_eq_some {m : Table K V} {k k' : K} {v w : V} :
    (m.insert k v).lookup k' = some w ↔ k' = k ∧ v = w ∨ k' ≠ k ∧ m.lookup k' = some w := by
  rw [lookup_insert]
  by_cases h : k' = k
  · simp [h]
  · simp [h]

theorem lookup_erase_eq_some {m : Table K V} {k k' : K} {v : V} :
    (m.erase k).lookup k' = some v ↔ k' ≠ k ∧ m.lookup k' = some v := by
  rw [lookup_erase]
  by_cases h : k' = k
  · simp [h]
  · simp [h]

theorem lookup_retain (p : K → V → Bool) (m : Table K V) (k : K) :
    (m.retain p).lookup k = (m.lookup k).filter (p k) := by
  apply Option.ext; intro v
  rw [← mem_entries]
  simp only [AList.retain, List.mem_filter, mem_entries, Option.filter_eq_some_iff]

theorem mem_retain {p : K → V → Bool} {m : Table K V} {k : K} :
    k ∈ m.retain p ↔ ∃ v, m.lookup k = some v ∧ p k v = true := by
  rw [mem_iff]
  simp only [lookup_retain, Option.filter_eq_some_iff]

theorem lookup_mapValues (f : V → V) (m : Table K V) (k : K) : (m.mapValues f).lookup k = (m.lookup k).map f := by
  apply Option.ext; intro v
  rw [← mem_entries]
  simp only [AList.mapValues, List.mem_map, Option.map_eq_some_iff]
  constructor
  · rintro ⟨⟨k', w⟩, hw, e⟩
    cases e
    exact ⟨w, mem_entries.mp hw, rfl⟩
  · rintro ⟨w, hw, rfl⟩
    exact ⟨⟨k, w⟩, mem_entries.mpr hw, rfl⟩

theorem erase_of_notMem {m : Table K V} {k : K} (h : k ∉ m) : m.erase k = m :=
  AList.ext (List.kerase_of_notMem_keys h)

theorem size_insert (m : Table K V) (k : K) (v : V) : (m.insert k v).size = (m.erase k).size + 1 := rfl

theorem size_insert_of_notMem {m : Table K V} {k : K} (h : k ∉ m) (v : V) : (m.insert k v).size = m.size + 1 := by
  rw [size_insert, erase_of_notMem h]

theorem entries_perm {m : Table K V} {k : K} {v : V} (h : m.lookup k = some v) :
    m.entries.Perm (⟨k, v⟩ :: (m.erase k).entries) := by
  have hk : k ∈ m.entries.keys := mem_of_lookup h
  obtain ⟨v', l₁, l₂, -, hl, he⟩ := List.exists_of_kerase hk
  have hv : m.lookup k = some v' := mem_entries.mp (by rw [hl]; simp)
  rw [h, Option.some.injEq] at hv
  subst hv
  change m.entries.Perm (⟨k, v⟩ :: List.kerase k m.entries)
  rw [he, hl]
  exact List.perm_middle

theorem size_insert_of_mem {m : Table K V} {k : K} (h : k ∈ m) (v : V) : (m.insert k v).size = m.size := by
  obtain ⟨w, hw⟩ := mem_iff.mp h
  rw [size_insert]
  exact (entries_perm hw).length_eq.symm

theorem filter_order {K V : Type} [DecidableEq K] (m : Table K V) (iter : IterOrder) (k : K) :
    (iter.order m.entries).filter (·.1 = k) = (m.lookup k).toList.map (⟨k, ·⟩) := by
  have hp := (iter.perm m.entries).filter fun e => decide (e.1 = k)
  cases h : m.lookup k with
  | none =>
    refine (hp.trans (List.Perm.of_eq (List.filter_eq_nil_iff.mpr fun e he => ?_))).eq_nil
    rw [decide_eq_true_eq]
    rintro rfl
    rw [mem_entries.mp he] at h
    cases h
  | some v =>
    have hrest : (m.erase k).entries.filter (fun e => decide (e.1 = k)) = [] :=
      List.filter_eq_nil_iff.mpr fun e he => by
        have := mem_entries.mp he
        rw [lookup_erase] at this
        rw [decide_eq_true_eq]
        intro hk
        rw [if_pos hk] at this
        cases this
    have := (entries_perm h).filter fun e => decide (e.1 = k)
    rw [List.filter_cons_of_pos (by simp), hrest] at this
    exact (hp.trans this).eq_singleton

end

/-! ## Sums over entries -/

section
variable {K V M : Type*} [AddCommMonoid M] (f : K → V → M)

def sumOver (m : Table K V) : M := (m.entries.map fun e => f e.1 e.2).sum

@[simp] theorem sumOver_empty [DecidableEq K] : sumOver f (∅ : Table K V) = 0 := rfl

theorem sumOver_congr {f g : K → V → M} [DecidableEq K] {m : Table K V}
    (h : ∀ k v, m.lookup k = some v → f k v = g k v) : sumOver f m = sumOver g m := by
  unfold sumOver
  congr 1
  exact List.map_congr_left fun e he => h e.1 e.2 (mem_entries.mp he)

variable [DecidableEq K]

theorem sumOver_erase {m : Table K V} {k : K} {v : V} (h : m.lookup k = some v) :
    sumOver f m = f k v + sumOver f (m.erase k) := ((entries_perm h).map _).sum_eq

theorem sumOver_eq_finsum (m : Table K V) : sumOver f m = ∑ᶠ k, ((m.lookup k).map (f k)).getD 0 := by
  have hs : (Function.support fun k => ((m.lookup k).map (f k)).getD 0) ⊆ (m.keys.toFinset : Set K) := by
    intro k hk
    rw [List.coe_toFinset, Set.mem_ofPred_eq, ← AList.mem_keys, mem_iff]
    cases h : m.lookup k with
    | none => simp [h] at hk
    | some v => exact ⟨v, rfl⟩
  rw [finsum_eq_sum_of_support_subset _ hs, List.sum_toFinset _ m.keys_nodup]
  unfold sumOver AList.keys List.keys
  rw [List.map_map]
  congr 1
  refine List.map_congr_left fun e he => ?_
  have hl : m.lookup e.1 = some e.2 := mem_entries.mp he
  simp only [Function.comp, hl, Option.map_some, Option.getD_some]

end

section
variable {K V : Type*} [DecidableEq K] (f : K → V → ℕ)

theorem sumOver_le {m : Table K V} {b : ℕ} (h : ∀ k v, m.lookup k = some v → f k v ≤ b) :
    sumOver f m ≤ m.size * b := by
  unfold sumOver AList.size
  refine le_trans (List.sum_le_card_nsmul _ b ?_) (by simp)
  intro x hx
  obtain ⟨e, he, rfl⟩ := List.mem_map.mp hx
  exact h e.1 e.2 (mem_entries.mp he)

end

end Table
