import Mathlib.Data.List.TakeDrop
import Mathlib.Order.Lattice

/-!
# Partition points

A list that a predicate cuts in two, as it does in a sorted list when it bounds
the key, has a last element in its first part: the one before the partition
point of a binary search.
-/

namespace Partition

section
variable {α : Type*} (p : α → Bool)

/-- The last element of the part that satisfies `p`. -/
def last (xs : List α) : Option α := (xs.takeWhile p).getLast?

/-- Once `p` fails it keeps failing. -/
def Partitioned (xs : List α) : Prop := xs.Pairwise fun x y => p y = true → p x = true

variable {p} {xs : List α}

theorem dropWhile_false : ∀ {xs : List α}, Partitioned p xs → ∀ y ∈ xs.dropWhile p, p y = false
  | [], _, y, hy => by cases hy
  | x :: xs, h, y, hy => by
    obtain ⟨hx, hxs⟩ := List.pairwise_cons.mp h
    by_cases hp : p x = true
    · rw [List.dropWhile_cons_of_pos hp] at hy
      exact dropWhile_false hxs y hy
    · rw [List.dropWhile_cons_of_neg hp] at hy
      rcases List.mem_cons.mp hy with rfl | hmem
      · exact (Bool.not_eq_true _).mp hp
      · exact (Bool.not_eq_true _).mp (mt (hx y hmem) hp)

theorem last_eq_none_iff (h : Partitioned p xs) : last p xs = none ↔ ∀ x ∈ xs, p x = false := by
  unfold last
  rw [List.getLast?_eq_none_iff]
  constructor
  · intro hnil x hx
    refine dropWhile_false h x ?_
    rwa [← List.takeWhile_append_dropWhile (p := p) (l := xs), hnil, List.nil_append] at hx
  · intro hall
    cases xs with
    | nil => rfl
    | cons x xs => exact List.takeWhile_cons_of_neg (by rw [hall x List.mem_cons_self]; exact Bool.false_ne_true)

theorem last_eq_some_iff (h : Partitioned p xs) {x : α} : last p xs = some x ↔
    ∃ before after, xs = before ++ x :: after ∧ p x = true ∧ ∀ y ∈ after, p y = false := by
  unfold last
  rw [List.getLast?_eq_some_iff]
  constructor
  · rintro ⟨before, hbefore⟩
    have hx : p x = true := List.all_eq_true.mp List.all_takeWhile x (by rw [hbefore]; simp)
    refine ⟨before, xs.dropWhile p, ?_, hx, dropWhile_false h⟩
    rw [List.append_cons, ← hbefore, List.takeWhile_append_dropWhile]
  · rintro ⟨before, after, rfl, hx, hafter⟩
    refine ⟨before, ?_⟩
    have hbefore : ∀ y ∈ before, p y = true := by
      intro y hy
      obtain ⟨-, -, hcross⟩ := List.pairwise_append.mp h
      exact hcross y hy x List.mem_cons_self hx
    rw [List.takeWhile_append_of_pos hbefore, List.takeWhile_cons_of_pos hx]
    cases after with
    | nil => rfl
    | cons y after =>
      rw [List.takeWhile_cons_of_neg (by rw [hafter y List.mem_cons_self]; exact Bool.false_ne_true)]

theorem mem_of_last {x : α} (h : last p xs = some x) : x ∈ xs ∧ p x = true := by
  have hmem : x ∈ xs.takeWhile p := List.mem_of_getLast? h
  exact ⟨(List.takeWhile_sublist p).subset hmem, List.all_eq_true.mp List.all_takeWhile x hmem⟩

end

section
variable {α κ : Type*} [LinearOrder κ] {key : α → κ}

theorem partitioned_of_sorted {xs : List α} (h : xs.Pairwise fun x y => key x ≤ key y) {p : α → Bool} {bound : κ}
    (hp : ∀ x, p x = true ↔ key x ≤ bound) : Partitioned p xs := by
  refine h.imp fun {x y} hxy hy => ?_
  rw [hp] at hy ⊢
  exact le_trans hxy hy

end

end Partition
