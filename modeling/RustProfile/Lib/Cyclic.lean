import Mathlib.Data.List.Rotate

/-!
# Reading around the end of a list

A list that is read cyclically from any position is a rotation of it. A window
of at most one round is a prefix of the rotation: one slice if it ends before
the list does, and two otherwise.
-/

namespace Cyclic

variable {α : Type*}

/-- `length` elements from `position` on, modulo the length of the list. -/
def window (xs : List α) (position length : ℕ) : List α := (xs.rotate position).take length

variable {xs : List α}

theorem length_window {position length : ℕ} (h : length ≤ xs.length) : (window xs position length).length = length := by
  unfold window
  rw [List.length_take, List.length_rotate, min_eq_left h]

theorem rotate_split (position : ℕ) :
    xs.rotate position = xs.drop (position % xs.length) ++ xs.take (position % xs.length) := by
  cases xs with
  | nil => simp
  | cons x xs =>
    exact (List.rotate_mod (x :: xs) position).symm.trans
      (List.rotate_eq_drop_append_take (Nat.mod_lt _ (Nat.succ_pos _)).le)

theorem window_inside {position length : ℕ} (h : length ≤ xs.length - position % xs.length) :
    window xs position length = (xs.take (position % xs.length + length)).drop (position % xs.length) := by
  unfold window
  rw [rotate_split, List.take_append_of_le_length (by rwa [List.length_drop]), List.drop_take, Nat.add_sub_cancel_left]

/-- Any other window is what is left of the list and a part of its start. -/
theorem window_around {position length : ℕ} (hx : 0 < xs.length) (h : xs.length - position % xs.length ≤ length)
    (hl : length ≤ xs.length) : window xs position length =
      xs.drop (position % xs.length) ++ xs.take (length - (xs.length - position % xs.length)) := by
  have hdrop : (xs.drop (position % xs.length)).length = xs.length - position % xs.length := List.length_drop
  have hmod := Nat.mod_lt position hx
  unfold window
  rw [rotate_split, List.take_append, hdrop, List.take_of_length_le (by omega), List.take_take,
    min_eq_left (by omega)]

theorem drop_window {position length k : ℕ} (hk : k ≤ length) (hl : length ≤ xs.length) :
    (window xs position length).drop k = window xs (position + k) (length - k) := by
  unfold window
  rw [← List.rotate_rotate, List.rotate_eq_drop_append_take (l := xs.rotate position)
    (by rw [List.length_rotate]; omega), List.take_append_of_le_length
    (by rw [List.length_drop, List.length_rotate]; omega), List.drop_take]

theorem take_window {position length k : ℕ} (hk : k ≤ length) :
    (window xs position length).take k = window xs position k := by
  unfold window
  rw [List.take_take, min_eq_left hk]

end Cyclic
