import Mathlib.Algebra.Order.Monoid.Canonical.Defs
import Mathlib.Algebra.BigOperators.Group.List.Basic

/-!
# Saturating arithmetic

Clamping at `top` turns addition into saturating addition, so a chain of
saturating additions of clamped values is the clamp of the exact sum, whatever
the order.
-/

namespace Sat

section
variable {α : Type*} [LinearOrder α] (top : α)

def clamp (a : α) : α := min a top

theorem clamp_le (a : α) : clamp top a ≤ top := min_le_right _ _

theorem clamp_of_le {a : α} (h : a ≤ top) : clamp top a = a := min_eq_left h

@[simp] theorem clamp_clamp (a : α) : clamp top (clamp top a) = clamp top a := clamp_of_le top (clamp_le top a)

end

section
variable {α : Type*} [AddCommMonoid α] [LinearOrder α] (top : α)

def add (a b : α) : α := min (a + b) top

variable [CanonicallyOrderedAdd α]

@[simp] theorem clamp_zero : clamp top 0 = 0 := min_eq_left zero_le

theorem add_clamp (a b : α) : add top (clamp top a) (clamp top b) = clamp top (a + b) := by
  unfold add clamp
  rcases le_total a top with ha | ha
  · rcases le_total b top with hb | hb
    · rw [min_eq_left ha, min_eq_left hb]
    · rw [min_eq_left ha, min_eq_right hb, min_eq_right (le_add_self : top ≤ a + top),
        min_eq_right (hb.trans le_add_self)]
  · rw [min_eq_right ha, min_eq_right (le_self_add : top ≤ top + min b top), min_eq_right (ha.trans le_self_add)]

theorem clamp_sum_map_clamp {ι : Type*} (l : List ι) (f : ι → α) :
    clamp top (l.map fun i => clamp top (f i)).sum = clamp top (l.map f).sum := by
  induction l with
  | nil => rfl
  | cons i l ih =>
    rw [List.map_cons, List.sum_cons, List.map_cons, List.sum_cons, ← add_clamp, clamp_clamp, ih, add_clamp]

end

end Sat
