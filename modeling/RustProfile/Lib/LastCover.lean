import RustProfile.Lib.Partition
import Mathlib.Data.List.Basic
import Mathlib.Order.Basic

/-!
# Looking up what was recorded last

Intervals are recorded one after another and then looked up in a list sorted by
their starts, by the one interval before the partition point. That finds the
cover recorded last exactly if later intervals start behind the earlier ones
that they meet, and no interval ends inside another one without one more that
starts behind it.
-/

namespace LastCover

section
variable {α κ : Type*} [LinearOrder κ] (start stop : α → κ)

def Covers (x : α) (a : κ) : Prop := start x ≤ a ∧ a < stop x

instance (x : α) (a : κ) : Decidable (Covers start stop x a) := inferInstanceAs (Decidable (_ ∧ _))

/-- The interval before the partition point, if it covers `a`. -/
def find (table : List α) (a : κ) : Option α :=
  (Partition.last (fun x => decide (start x ≤ a)) table).filter fun x => decide (a < stop x)

/-- The cover of `a` that was recorded last. -/
def lastCover (entries : List α) (a : κ) : Option α :=
  (entries.filter fun x => decide (Covers start stop x a)).getLast?

/-- What sorting by start may leave: equal starts are in any order. -/
structure SortedByStart (table entries : List α) : Prop where
  perm : table.Perm entries
  sorted : table.Pairwise fun x y => start x ≤ start y

/-- In each sorted table every covered point is found in the interval that was recorded last. -/
def FindsLast (entries : List α) : Prop :=
  ∀ table, SortedByStart start table entries → ∀ a, (∃ x ∈ entries, Covers start stop x a) →
    find start stop table a = lastCover start stop entries a

/-- An interval that is not recorded again starts before the later ones that it meets. -/
def LaterStartsBehind (entries : List α) : Prop :=
  ∀ before y after, entries = before ++ y :: after → ∀ x ∈ before, x ∉ y :: after →
    (∃ a, Covers start stop x a ∧ Covers start stop y a) → start x < start y

/-- Where an interval ends inside another, one covers its end that starts behind its start. -/
def EndsCovered (entries : List α) : Prop :=
  ∀ x ∈ entries, (∃ y ∈ entries, Covers start stop y (stop x)) →
    ∃ y ∈ entries, Covers start stop y (stop x) ∧ start x < start y

variable {start stop} {entries table : List α} {x : α} {a : κ}

theorem partitioned (h : SortedByStart start table entries) (a : κ) :
    Partition.Partitioned (fun x => decide (start x ≤ a)) table :=
  Partition.partitioned_of_sorted h.sorted fun _ => decide_eq_true_iff

theorem lastCover_append (xs ys : List α) (a : κ) :
    lastCover start stop (xs ++ ys) a = (lastCover start stop ys a).or (lastCover start stop xs a) := by
  unfold lastCover
  rw [List.filter_append, List.getLast?_append]

theorem mem_of_lastCover (h : lastCover start stop entries a = some x) : x ∈ entries ∧ Covers start stop x a := by
  have hmem := List.mem_of_getLast? h
  rw [List.mem_filter, decide_eq_true_eq] at hmem
  exact hmem

theorem lastCover_isSome (hx : x ∈ entries) (hc : Covers start stop x a) :
    ∃ y, lastCover start stop entries a = some y := by
  cases hl : lastCover start stop entries a with
  | some y => exact ⟨y, rfl⟩
  | none =>
    have hnil := List.getLast?_eq_none_iff.mp hl
    exact absurd (decide_eq_true hc) (List.filter_eq_nil_iff.mp hnil x hx)

theorem split_of_lastCover (h : lastCover start stop entries a = some x) :
    ∃ before after, entries = before ++ x :: after ∧ ∀ y ∈ after, ¬ Covers start stop y a := by
  induction entries with
  | nil => cases h
  | cons z entries ih =>
    rw [← List.singleton_append, lastCover_append] at h
    cases hl : lastCover start stop entries a with
    | some y =>
      rw [hl] at h
      obtain ⟨before, after, hsplit, hafter⟩ := ih (hl.trans h)
      exact ⟨z :: before, after, by rw [hsplit, List.cons_append], hafter⟩
    | none =>
      rw [hl, Option.none_or] at h
      obtain ⟨hz, -⟩ := mem_of_lastCover h
      obtain rfl := List.mem_singleton.mp hz
      refine ⟨[], entries, rfl, fun y hy hc => ?_⟩
      obtain ⟨w, hw⟩ := lastCover_isSome hy hc
      rw [hl] at hw
      cases hw

theorem start_le_of_last (h : SortedByStart start table entries)
    (hl : Partition.last (fun x => decide (start x ≤ a)) table = some x) {y : α} (hy : y ∈ entries)
    (hya : start y ≤ a) : start y ≤ start x := by
  obtain ⟨before, after, hsplit, -, hafter⟩ := (Partition.last_eq_some_iff (partitioned h a)).mp hl
  have hsorted := h.sorted
  rw [hsplit] at hsorted
  have hmem : y ∈ before ++ x :: after := hsplit ▸ h.perm.mem_iff.mpr hy
  rcases List.mem_append.mp hmem with hbefore | htail
  · exact (List.pairwise_append.mp hsorted).2.2 y hbefore x List.mem_cons_self
  · rcases List.mem_cons.mp htail with rfl | hmem
    · exact le_rfl
    · exact absurd hya (of_decide_eq_false (hafter y hmem))

theorem sortedByStart_mergeSort (entries : List α) :
    SortedByStart start (entries.mergeSort fun x y => decide (start x ≤ start y)) entries := by
  refine ⟨List.mergeSort_perm _ _, (List.pairwise_mergeSort (fun x y z hxy hyz => ?_) (fun x y => ?_) _).imp
    fun h => of_decide_eq_true h⟩
  · rw [decide_eq_true_eq] at hxy hyz ⊢
    exact hxy.trans hyz
  · rw [Bool.or_eq_true, decide_eq_true_eq, decide_eq_true_eq]
    exact le_total _ _

/-- Any interval with the greatest start below `a` may be the one before the partition point. -/
theorem exists_last (hx : x ∈ entries) (hxa : start x ≤ a)
    (hgreatest : ∀ y ∈ entries, start y ≤ a → start y ≤ start x) :
    ∃ table, SortedByStart start table entries ∧
      Partition.last (fun x => decide (start x ≤ a)) table = some x := by
  obtain ⟨before, after, rfl⟩ := List.append_of_mem hx
  obtain ⟨rest, hperm, hsorted⟩ : ∃ rest, SortedByStart start rest (before ++ after) :=
    ⟨_, sortedByStart_mergeSort _⟩
  obtain ⟨low, high, hsplit, hlow, hhigh⟩ : ∃ low high, rest = low ++ high ∧ (∀ y ∈ low, start y ≤ a) ∧
      ∀ y ∈ high, ¬ start y ≤ a := by
    refine ⟨rest.takeWhile fun y => start y ≤ a, rest.dropWhile fun y => start y ≤ a,
      List.takeWhile_append_dropWhile.symm, fun y hy => ?_, fun y hy => ?_⟩
    · exact of_decide_eq_true (List.all_eq_true.mp List.all_takeWhile y hy)
    · exact of_decide_eq_false (Partition.dropWhile_false
        (Partition.partitioned_of_sorted hsorted fun _ => decide_eq_true_iff) y hy)
  have hmem : ∀ y ∈ rest, y ∈ before ++ x :: after := by
    intro y hy
    rcases List.mem_append.mp (hperm.mem_iff.mp hy) with h | h
    · exact List.mem_append_left _ h
    · exact List.mem_append_right _ (List.mem_cons_of_mem _ h)
  obtain ⟨hlowsorted, hhighsorted, hcross⟩ := List.pairwise_append.mp (hsplit ▸ hsorted)
  have htable : SortedByStart start (low ++ x :: high) (before ++ x :: after) := by
    refine ⟨?_, List.pairwise_append.mpr ⟨hlowsorted, List.pairwise_cons.mpr ⟨fun y hy => ?_, hhighsorted⟩, ?_⟩⟩
    · exact List.perm_middle.trans (((hsplit ▸ hperm).cons x).trans List.perm_middle.symm)
    · exact hxa.trans (not_le.mp (hhigh y hy)).le
    · intro y hy z hz
      have hyx := hgreatest y (hmem y (hsplit ▸ List.mem_append_left _ hy)) (hlow y hy)
      rcases List.mem_cons.mp hz with rfl | hz
      · exact hyx
      · exact hcross y hy z hz
  refine ⟨_, htable, (Partition.last_eq_some_iff (partitioned htable a)).mpr ⟨low, high, rfl, decide_eq_true hxa, ?_⟩⟩
  exact fun y hy => decide_eq_false (hhigh y hy)

/-! ## The exact condition -/

theorem findsLast_of_apart (hle : ∀ x ∈ entries, start x ≤ stop x) (hlater : LaterStartsBehind start stop entries)
    (hends : EndsCovered start stop entries) : FindsLast start stop entries := by
  rintro table htable a ⟨f, hf, hfa⟩
  have hpart := partitioned htable a
  cases hl : Partition.last (fun x => decide (start x ≤ a)) table with
  | none =>
    have hnone := (Partition.last_eq_none_iff hpart).mp hl f (htable.perm.mem_iff.mpr hf)
    exact absurd hfa.1 (of_decide_eq_false hnone)
  | some g =>
    obtain ⟨hgtable, hga⟩ := Partition.mem_of_last hl
    have hg := htable.perm.mem_iff.mp hgtable
    have hstart : start g ≤ a := of_decide_eq_true hga
    have hgreatest : ∀ y ∈ entries, start y ≤ a → start y ≤ start g := fun y => start_le_of_last htable hl
    have hcovers : a < stop g := by
      by_contra hstop
      -- otherwise `f` covers the end of `g`, and so does one that starts between that of `g` and `a`
      have hfend : Covers start stop f (stop g) :=
        ⟨(hgreatest f hf hfa.1).trans (hle g hg), lt_of_le_of_lt (not_lt.mp hstop) hfa.2⟩
      obtain ⟨y, hy, hyend, hlt⟩ := hends g hg ⟨f, hf, hfend⟩
      exact absurd (hgreatest y hy (hyend.1.trans (not_lt.mp hstop))) (not_le.mpr hlt)
    obtain ⟨l, hlast⟩ := lastCover_isSome hg ⟨hstart, hcovers⟩
    obtain ⟨hmem, hcl⟩ := mem_of_lastCover hlast
    have hlg : l = g := by
      by_contra hne
      obtain ⟨before, after, hsplit, hafter⟩ := split_of_lastCover hlast
      have hnotin : g ∉ l :: after := by
        intro hin
        rcases List.mem_cons.mp hin with rfl | hin
        · exact hne rfl
        · exact hafter g hin ⟨hstart, hcovers⟩
      have hbefore : g ∈ before := (List.mem_append.mp (hsplit ▸ hg)).resolve_right hnotin
      have hlt := hlater before l after hsplit g hbefore hnotin ⟨a, ⟨hstart, hcovers⟩, hcl⟩
      exact absurd (hgreatest l hmem hcl.1) (not_le.mpr hlt)
    unfold find
    rw [hl, hlast, hlg, Option.filter_some, if_pos (decide_eq_true hcovers)]

theorem laterStartsBehind_of_finds (h : FindsLast start stop entries) : LaterStartsBehind start stop entries := by
  rintro before y after rfl x hx hnotin ⟨a, hxa, hya⟩
  by_contra hle
  have hle := not_lt.mp hle
  have hmem : x ∈ before ++ y :: after := List.mem_append_left _ hx
  have hxs : Covers start stop x (start x) := ⟨le_rfl, lt_of_le_of_lt hxa.1 hxa.2⟩
  have hys : Covers start stop y (start x) := ⟨hle, lt_of_le_of_lt hxa.1 hya.2⟩
  obtain ⟨table, htable, hl⟩ := exists_last (a := start x) hmem le_rfl fun _ _ h => h
  have hfind := h table htable (start x) ⟨x, hmem, hxs⟩
  obtain ⟨l, hlast⟩ := lastCover_isSome (List.mem_cons_self (a := y) (l := after)) hys
  unfold find at hfind
  rw [hl, Option.filter_some, if_pos (decide_eq_true hxs.2), lastCover_append, hlast, Option.some_or,
    Option.some.injEq] at hfind
  exact hnotin (hfind ▸ (mem_of_lastCover hlast).1)

theorem endsCovered_of_finds (hle : ∀ x ∈ entries, start x ≤ stop x) (h : FindsLast start stop entries) :
    EndsCovered start stop entries := by
  rintro x hx ⟨f, hf, hfx⟩
  by_contra hnone
  obtain ⟨l, hlast⟩ := lastCover_isSome hf hfx
  obtain ⟨hl, hcl⟩ := mem_of_lastCover hlast
  have hlx : start l ≤ start x := by
    by_contra hlt
    exact hnone ⟨l, hl, hcl, not_le.mp hlt⟩
  -- nothing starts between `x` and its end, or that would be found there
  have hgreatest : ∀ y ∈ entries, start y ≤ stop x → start y ≤ start x := by
    obtain ⟨table, htable, -⟩ := exists_last (a := start l) hl le_rfl fun _ _ h => h
    intro y hy hys
    have hfind := h table htable (stop x) ⟨l, hl, hcl⟩
    rw [hlast] at hfind
    unfold find at hfind
    obtain ⟨hlastl, -⟩ := Option.filter_eq_some_iff.mp hfind
    exact (start_le_of_last htable hlastl hy hys).trans hlx
  obtain ⟨table, htable, hlastx⟩ := exists_last (a := stop x) hx (hle x hx) hgreatest
  have hfind := h table htable (stop x) ⟨l, hl, hcl⟩
  rw [hlast] at hfind
  unfold find at hfind
  rw [hlastx, Option.filter_some, if_neg (by simp)] at hfind
  cases hfind

/-- **When predecessors in sorted tables are the last covers.** -/
theorem findsLast_iff (hle : ∀ x ∈ entries, start x ≤ stop x) :
    FindsLast start stop entries ↔ LaterStartsBehind start stop entries ∧ EndsCovered start stop entries :=
  ⟨fun h => ⟨laterStartsBehind_of_finds h, endsCovered_of_finds hle h⟩,
    fun h => findsLast_of_apart hle h.1 h.2⟩

end

end LastCover
