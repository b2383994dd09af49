import Mathlib.Order.Defs.LinearOrder

/-! # The order of machine words -/

namespace UInt64Order

scoped instance linearOrder : LinearOrder UInt64 where
  le := (· ≤ ·)
  lt := (· < ·)
  le_refl := UInt64.le_refl
  le_trans := fun _ _ _ => UInt64.le_trans
  lt_iff_le_not_ge := fun a b => by
    rw [UInt64.le_iff_toNat_le, UInt64.le_iff_toNat_le, UInt64.lt_iff_toNat_lt]
    omega
  le_antisymm := fun _ _ => UInt64.le_antisymm
  le_total := UInt64.le_total
  toDecidableLE := inferInstance
  toDecidableLT := inferInstance
  toDecidableEq := inferInstance
  min := min
  max := max
  min_def := fun _ _ => rfl
  max_def := fun _ _ => rfl
  compare := compare
  compare_eq_compareOfLessAndEq := fun _ _ => rfl

end UInt64Order
