import Mathlib.Data.List.Perm.Basic
import Mathlib.Data.List.Nodup

/-!
# Grouping rows

Rows with a key are gathered under their keys, each key standing where it came
first. Nothing is lost, and under each key the order is kept.
-/

namespace Grouping

variable {κ β : Type*} [DecidableEq κ]

/-- Add a row to the group of its key, or start one at the end. -/
def add : List (κ × List β) → κ × β → List (κ × List β)
  | [], row => [(row.1, [row.2])]
  | g :: gs, row => if g.1 = row.1 then (g.1, g.2 ++ [row.2]) :: gs else g :: add gs row

def group (rows : List (κ × β)) : List (κ × List β) := rows.foldl add []

def valuesOf (k : κ) (rows : List (κ × β)) : List β := (rows.filter (·.1 = k)).map Prod.snd

def ungroup (gs : List (κ × List β)) : List (κ × β) := gs.flatMap fun g => g.2.map (g.1, ·)

theorem add_of_notMem {gs : List (κ × List β)} {r : κ × β} (h : r.1 ∉ gs.map Prod.fst) :
    add gs r = gs ++ [(r.1, [r.2])] := by
  induction gs with
  | nil => rfl
  | cons g gs ih =>
    rw [List.map_cons, List.mem_cons, not_or] at h
    rw [add, if_neg (Ne.symm h.1), ih h.2, List.cons_append]

theorem add_of_getElem? {gs : List (κ × List β)} {r : κ × β} {i : ℕ} (hn : (gs.map Prod.fst).Nodup)
    (hi : (gs.map Prod.fst)[i]? = some r.1) :
    add gs r = gs.modify i fun g => (g.1, g.2 ++ [r.2]) := by
  induction gs generalizing i with
  | nil => simp at hi
  | cons g gs ih =>
    rw [List.map_cons, List.nodup_cons] at hn
    cases i with
    | zero =>
      rw [List.map_cons, List.getElem?_cons_zero, Option.some.injEq] at hi
      rw [add, if_pos hi, List.modify_zero_cons]
    | succ i =>
      rw [List.map_cons, List.getElem?_cons_succ] at hi
      have hne : g.1 ≠ r.1 := by
        intro he
        rw [he] at hn
        exact hn.1 (List.mem_of_getElem? hi)
      rw [add, if_neg hne, ih hn.2 hi, List.modify_succ_cons]

/-- A change of an entry that the map does not see, or sees as another change. -/
theorem map_modify {α γ : Type*} {f : α → γ} {g : α → α} {g' : γ → γ} (h : ∀ a, f (g a) = g' (f a)) (l : List α)
    (i : ℕ) : (l.modify i g).map f = (l.map f).modify i g' := by
  refine List.ext_getElem? fun j => ?_
  rw [List.getElem?_map, List.getElem?_modify, List.getElem?_modify, List.getElem?_map]
  cases l[j]? with
  | none => rfl
  | some a =>
    by_cases hij : i = j
    · simp [hij, h]
    · simp [hij]

omit [DecidableEq κ] in
theorem keys_modify (gs : List (κ × List β)) (i : ℕ) (b : β) :
    (gs.modify i fun g => (g.1, g.2 ++ [b])).map Prod.fst = gs.map Prod.fst := by
  have h := @map_modify _ _ Prod.fst (fun g : κ × List β => (g.1, g.2 ++ [b])) id (fun _ => rfl) gs i
  rw [List.modify_id] at h
  exact h

theorem mem_keys_add (gs : List (κ × List β)) (row : κ × β) (k : κ) :
    k ∈ (add gs row).map Prod.fst ↔ k ∈ gs.map Prod.fst ∨ k = row.1 := by
  induction gs with
  | nil => simp [add]
  | cons g gs ih =>
    rw [add]
    by_cases h : g.1 = row.1
    · rw [if_pos h]
      simp only [List.map_cons, List.mem_cons, h]
      tauto
    · rw [if_neg h, List.map_cons, List.mem_cons, ih, List.map_cons, List.mem_cons]
      tauto

theorem nodup_keys_add {gs : List (κ × List β)} (h : (gs.map Prod.fst).Nodup) (row : κ × β) :
    ((add gs row).map Prod.fst).Nodup := by
  induction gs with
  | nil => simp [add]
  | cons g gs ih =>
    rw [List.map_cons, List.nodup_cons] at h
    rw [add]
    by_cases hg : g.1 = row.1
    · rw [if_pos hg, List.map_cons, List.nodup_cons]
      exact h
    · rw [if_neg hg, List.map_cons, List.nodup_cons, mem_keys_add]
      exact ⟨by rintro (h' | h'); exacts [h.1 h', hg h'], ih h.2⟩

theorem ungroup_add (gs : List (κ × List β)) (row : κ × β) : (ungroup (add gs row)).Perm (ungroup gs ++ [row]) := by
  induction gs with
  | nil => exact List.Perm.refl _
  | cons g gs ih =>
    rw [add]
    by_cases hg : g.1 = row.1
    · rw [if_pos hg]
      have hrow : row = (g.1, row.2) := by rw [hg]
      unfold ungroup
      rw [List.flatMap_cons, List.flatMap_cons, List.map_append, List.append_assoc, List.append_assoc]
      refine List.Perm.append_left _ ?_
      rw [List.map_singleton, ← hrow]
      exact List.perm_append_comm
    · rw [if_neg hg]
      unfold ungroup at ih ⊢
      rw [List.flatMap_cons, List.flatMap_cons, List.append_assoc]
      exact List.Perm.append_left _ ih

theorem values_add {rows : List (κ × β)} {gs : List (κ × List β)}
    (hkeys : ∀ k, k ∈ gs.map Prod.fst ↔ k ∈ rows.map Prod.fst)
    (hvalues : ∀ g ∈ gs, g.2 = valuesOf g.1 rows) (hn : (gs.map Prod.fst).Nodup) (row : κ × β) :
    ∀ g ∈ add gs row, g.2 = valuesOf g.1 (rows ++ [row]) := by
  have hother : ∀ k, k ≠ row.1 → valuesOf k (rows ++ [row]) = valuesOf k rows := by
    intro k hk
    unfold valuesOf
    rw [List.filter_append, List.filter_singleton, decide_eq_false (Ne.symm hk)]
    simp
  have hsame : valuesOf row.1 (rows ++ [row]) = valuesOf row.1 rows ++ [row.2] := by
    unfold valuesOf
    simp [List.filter_append]
  -- Keys do not repeat, so only the group at `i` may change.
  by_cases hmem : row.1 ∈ gs.map Prod.fst
  · obtain ⟨i, hi, hrow⟩ := List.mem_iff_getElem.mp hmem
    have hget : (gs.map Prod.fst)[i]? = some row.1 := by rw [List.getElem?_eq_getElem hi, hrow]
    rw [add_of_getElem? hn hget]
    intro g hg
    obtain ⟨j, hj⟩ := List.mem_iff_getElem?.mp hg
    by_cases hij : i = j
    · subst hij
      rw [List.getElem?_modify_eq] at hj
      obtain ⟨g', hg', rfl⟩ := Option.map_eq_some_iff.mp hj
      rw [List.getElem?_map, hg', Option.map_some, Option.some.injEq] at hget
      rw [hvalues g' (List.mem_of_getElem? hg')]
      dsimp only
      rw [hget, hsame]
    · rw [List.getElem?_modify_ne _ _ hij] at hj
      have hne : g.1 ≠ row.1 := by
        intro he
        have hgj : (gs.map Prod.fst)[j]? = some row.1 := by rw [List.getElem?_map, hj, Option.map_some, he]
        exact hij ((List.getElem?_inj hi hn).mp (hget.trans hgj.symm))
      rw [hvalues g (List.mem_of_getElem? hj), hother _ hne]
  · rw [add_of_notMem hmem]
    intro g hg
    rcases List.mem_append.mp hg with hg | hg
    · have hne : g.1 ≠ row.1 := fun he => hmem (he ▸ List.mem_map_of_mem hg)
      rw [hvalues g hg, hother _ hne]
    · rw [List.mem_singleton.mp hg]
      have hnone : valuesOf row.1 rows = [] := by
        unfold valuesOf
        rw [List.map_eq_nil_iff, List.filter_eq_nil_iff]
        intro r hr
        rw [decide_eq_true_eq]
        intro he
        exact hmem ((hkeys row.1).mpr (he ▸ List.mem_map_of_mem hr))
      dsimp only
      rw [hsame, hnone, List.nil_append]

structure Groups (rows : List (κ × β)) (gs : List (κ × List β)) : Prop where
  nodup : (gs.map Prod.fst).Nodup
  keys : ∀ k, k ∈ gs.map Prod.fst ↔ k ∈ rows.map Prod.fst
  values : ∀ g ∈ gs, g.2 = valuesOf g.1 rows
  perm : (ungroup gs).Perm rows

theorem Groups.add {rows : List (κ × β)} {gs : List (κ × List β)} (h : Groups rows gs) (row : κ × β) :
    Groups (rows ++ [row]) (add gs row) := by
  refine ⟨nodup_keys_add h.nodup row, ?_, values_add h.keys h.values h.nodup row, ?_⟩
  · intro k
    rw [mem_keys_add, h.keys, List.map_append, List.mem_append, List.map_singleton, List.mem_singleton]
  · exact (ungroup_add gs row).trans (h.perm.append_right [row])

theorem foldl_groups : ∀ (rows' : List (κ × β)) {rows : List (κ × β)} {gs : List (κ × List β)}, Groups rows gs →
    Groups (rows ++ rows') (rows'.foldl Grouping.add gs)
  | [], rows, gs, h => by
    rw [List.append_nil]
    exact h
  | row :: rows', rows, gs, h => by
    have hrest := foldl_groups rows' (h.add row)
    rw [List.append_assoc] at hrest
    exact hrest

/-- **Grouping loses nothing** and keeps the order under each key. -/
theorem group_spec (rows : List (κ × β)) : Groups rows (group rows) := by
  have hempty : Groups ([] : List (κ × β)) ([] : List (κ × List β)) :=
    ⟨List.nodup_nil, fun k => by simp, fun g hg => (List.not_mem_nil hg).elim, List.Perm.refl _⟩
  exact foldl_groups rows hempty

/-! ## Groups under another key -/

section
variable {κ' : Type*} {rows : List (κ × β)} {gs : List (κ × List β)} (h : Groups rows gs) (f : κ → κ')

include h

/-- Whatever the keys are read as, the rows read so are all there. -/
theorem Groups.map_perm :
    ((gs.map fun g => g.2.map (f g.1, ·)).flatten).Perm (rows.map fun row => (f row.1, row.2)) := by
  have hread : (gs.map fun g => g.2.map (f g.1, ·)).flatten = (ungroup gs).map fun row => (f row.1, row.2) := by
    unfold ungroup
    rw [List.map_flatMap, ← List.flatMap_def]
    simp only [List.map_map, Function.comp_def]
  rw [hread]
  exact h.perm.map _

theorem Groups.map_sublist {g : κ × List β} (hg : g ∈ gs) :
    (g.2.map (f g.1, ·)).Sublist (rows.map fun row => (f row.1, row.2)) := by
  have hrows : g.2.map (f g.1, ·) = (rows.filter (·.1 = g.1)).map fun row => (f row.1, row.2) := by
    rw [h.values g hg]
    unfold valuesOf
    rw [List.map_map]
    refine List.map_congr_left fun row hrow => ?_
    have hkey := List.of_mem_filter hrow
    rw [decide_eq_true_eq] at hkey
    simp only [Function.comp_apply, hkey]
  rw [hrows]
  exact List.filter_sublist.map _

/-- Keys that are read apart give groups that are. -/
theorem Groups.map_nodup (hf : ∀ r ∈ rows, ∀ r' ∈ rows, f r.1 = f r'.1 → r.1 = r'.1) :
    (gs.map fun g => f g.1).Nodup := by
  have hkey : ∀ k ∈ gs.map Prod.fst, ∃ r ∈ rows, r.1 = k := fun k hk => List.mem_map.mp ((h.keys k).mp hk)
  rw [show (gs.map fun g => f g.1) = (gs.map Prod.fst).map f by rw [List.map_map]; rfl]
  refine h.nodup.map_on ?_
  intro k hk k' hk' he
  obtain ⟨r, hr, rfl⟩ := hkey k hk
  obtain ⟨r', hr', rfl⟩ := hkey k' hk'
  exact hf r hr r' hr' he

end

end Grouping
