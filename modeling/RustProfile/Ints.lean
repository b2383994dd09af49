import RustProfile.Lib.Sat
import Mathlib.Data.Int.Order.Basic
import Mathlib.Tactic.NormNum

/-!
# Machine integers

`u64` values are `UInt64` where the code keys maps by them or works on their
bits. Counters, times and `u128` totals are `ℕ` and `i64` values are `ℤ`; the
saturating operations of the code keep both in range.
-/

namespace RustProfile

def u64Max : ℕ := 2 ^ 64 - 1
def u128Max : ℕ := 2 ^ 128 - 1
def i64Max : ℕ := 2 ^ 63 - 1

/-- `u64::saturating_mul`. -/
def saturatingMulU64 (a b : UInt64) : UInt64 := UInt64.ofNat (min (a.toNat * b.toNat) u64Max)

/-- `u64::saturating_add`. -/
def saturatingAddU64 (a b : ℕ) : ℕ := Sat.add u64Max a b

/-- `u128::saturating_add`. -/
def saturatingAddU128 (a b : ℕ) : ℕ := Sat.add u128Max a b

/-- `i64::saturating_add`. -/
def saturatingAddI64 (a b : ℤ) : ℤ := max (-2 ^ 63) (min (a + b) i64Max)

/-- `i64::try_from(value).unwrap_or(i64::MAX)` of an unsigned value. -/
def saturatingI64 (value : ℕ) : ℤ := if value ≤ i64Max then value else i64Max

/-- The last `Instant` in nanoseconds: its seconds are an `i64`. -/
def instantMax : ℕ := (2 ^ 63 - 1) * 1000000000 + 999999999

/-- `Instant::checked_add`. -/
def checkedAdd (instant duration : ℕ) : Option ℕ :=
  if instant + duration ≤ instantMax then some (instant + duration) else none

theorem saturatingAddU64_zero {a : ℕ} (h : a ≤ u64Max) : saturatingAddU64 a 0 = a := by
  rw [saturatingAddU64, Sat.add, Nat.add_zero, min_eq_left h]

theorem saturatingAddU64_assoc (a b c : ℕ) :
    saturatingAddU64 (saturatingAddU64 a b) c = saturatingAddU64 a (b + c) := by
  unfold saturatingAddU64 Sat.add
  omega

theorem toNat_le_u64Max (a : UInt64) : a.toNat ≤ u64Max := Nat.le_pred_of_lt a.toNat_lt

theorem toNat_saturatingMulU64 (a b : UInt64) :
    (saturatingMulU64 a b).toNat = min (a.toNat * b.toNat) u64Max := by
  unfold saturatingMulU64
  rw [UInt64.toNat_ofNat', Nat.mod_eq_of_lt]
  exact lt_of_le_of_lt (min_le_right _ _) (by decide)

theorem saturatingI64_eq (n : ℕ) : saturatingI64 n = (min n i64Max : ℕ) := by
  unfold saturatingI64
  split <;> simp <;> omega

@[simp] theorem saturatingI64_zero : saturatingI64 0 = 0 := rfl

theorem saturatingAddI64_add (a b : ℕ) :
    saturatingAddI64 (saturatingI64 a) (saturatingI64 b) = saturatingI64 (a + b) := by
  have h := Sat.add_clamp i64Max a b
  simp only [Sat.add, Sat.clamp] at h
  rw [saturatingI64_eq, saturatingI64_eq, saturatingI64_eq, ← h]
  unfold saturatingAddI64
  omega

/-- A counter that a loop advances by narrowed values ends at the narrowed sum. -/
theorem foldl_counter {σ ι : Type*} (get : σ → ℤ) {g : σ → ι → σ} (f : ι → ℕ)
    (hg : ∀ s i, get (g s i) = saturatingAddI64 (get s) (saturatingI64 (f i))) {s : σ} {a : ℕ}
    (hs : get s = saturatingI64 a) (l : List ι) : get (l.foldl g s) = saturatingI64 (a + (l.map f).sum) := by
  induction l generalizing s a with
  | nil => simp [hs]
  | cons i l ih =>
    rw [List.foldl_cons, ih (hg s i |>.trans (by rw [hs, saturatingAddI64_add])), List.map_cons, List.sum_cons,
      Nat.add_assoc]

theorem foldl_frame {σ ι α : Type*} (get : σ → α) {g : σ → ι → σ} (hg : ∀ s i, get (g s i) = get s) (l : List ι)
    (s : σ) : get (l.foldl g s) = get s := by
  induction l generalizing s with
  | nil => rfl
  | cons i l ih => rw [List.foldl_cons, ih, hg]

end RustProfile
