import Mathlib.Algebra.Order.BigOperators.Group.List
import Mathlib.Algebra.Order.Field.Power
import Mathlib.Algebra.Order.Floor.Semifield
import Mathlib.Data.Int.Log
import Mathlib.Data.Rat.Floor
import Mathlib.Tactic.Linarith
import Mathlib.Tactic.NormNum
import Mathlib.Tactic.Positivity

/-!
# Rounding to doubles

A rational is rounded to the nearest number with 53 binary digits, the even one
of two, and to no finer unit than that of the least doubles. Naturals below
`2 ^ 53` are doubles, and from there on sums of naturals stay there.
-/

namespace Binary64

/-- The nearest integer, the even one of two. -/
def roundEven (x : ℚ) : ℤ :=
  if x - ⌊x⌋ < 1 / 2 ∨ (x - ⌊x⌋ = 1 / 2 ∧ ⌊x⌋ % 2 = 0) then ⌊x⌋ else ⌊x⌋ + 1

/-- The exponent of the last digit. -/
def lastExponent (x : ℚ) : ℤ := max (Int.log 2 |x| - 52) (-1074)

/-- The double nearest to a number that is no larger than the largest of them. -/
def round (x : ℚ) : ℚ := roundEven (x / 2 ^ lastExponent x) * 2 ^ lastExponent x

/-- A natural number rounded to one. -/
def roundNat (round : ℚ → ℚ) (n : ℕ) : ℕ := ⌊round n⌋₊

theorem roundNat_id : roundNat id = id := funext fun n => Nat.floor_natCast n

theorem roundEven_intCast (n : ℤ) : roundEven n = n := by
  unfold roundEven
  rw [Int.floor_intCast, sub_self, if_pos (Or.inl (by norm_num))]

theorem floor_le_roundEven (x : ℚ) : ⌊x⌋ ≤ roundEven x := by
  unfold roundEven
  split
  · exact le_refl _
  · omega

theorem round_zero : round 0 = 0 := by
  unfold round
  rw [zero_div, ← Int.cast_zero, roundEven_intCast, Int.cast_zero, zero_mul]

theorem round_nonneg {x : ℚ} (h : 0 ≤ x) : 0 ≤ round x := by
  have hunit : (0 : ℚ) < 2 ^ lastExponent x := by positivity
  have hfloor : 0 ≤ ⌊x / 2 ^ lastExponent x⌋ := Int.floor_nonneg.mpr (div_nonneg h hunit.le)
  have hrounded : 0 ≤ roundEven (x / 2 ^ lastExponent x) := hfloor.trans (floor_le_roundEven _)
  exact mul_nonneg (Int.cast_nonneg hrounded) hunit.le

/-! ## Naturals -/

theorem round_natCast {n : ℕ} (h : n < 2 ^ 53) : round n = n := by
  rcases Nat.eq_zero_or_pos n with rfl | hpos
  · exact round_zero
  have hlog : Int.log 2 |(n : ℚ)| < 53 := by
    rw [Nat.abs_cast, ← Int.lt_zpow_iff_log_lt (by norm_num) (Nat.cast_pos.mpr hpos)]
    exact_mod_cast h
  obtain ⟨k, hk⟩ : ∃ k : ℕ, lastExponent n = -(k : ℤ) := by
    refine ⟨(-lastExponent n).toNat, ?_⟩
    unfold lastExponent
    omega
  have hscaled : (n : ℚ) / 2 ^ lastExponent n = ((n * 2 ^ k : ℕ) : ℤ) := by
    rw [hk, zpow_neg, zpow_natCast, div_inv_eq_mul]
    push_cast
    rfl
  have hunit : (2 : ℚ) ^ lastExponent n ≠ 0 := by positivity
  unfold round
  rw [hscaled, roundEven_intCast, ← hscaled, div_mul_cancel₀ _ hunit]

theorem lastExponent_natCast {n : ℕ} (h : 2 ^ 53 ≤ n) :
    1 ≤ lastExponent n ∧ 2 ^ 52 * 2 ^ lastExponent n ≤ (n : ℚ) := by
  have hpos : (0 : ℚ) < n := Nat.cast_pos.mpr (lt_of_lt_of_le (by norm_num) h)
  have hlog : 53 ≤ Int.log 2 (n : ℚ) := by
    rw [← Int.zpow_le_iff_le_log (by norm_num) hpos]
    exact_mod_cast h
  have hexponent : Int.log 2 (n : ℚ) = 52 + lastExponent n := by
    unfold lastExponent
    rw [Nat.abs_cast]
    omega
  have hle : (2 : ℚ) ^ Int.log 2 (n : ℚ) ≤ n := by exact_mod_cast Int.zpow_log_le_self (by norm_num) hpos
  rw [hexponent, zpow_add₀ two_ne_zero] at hle
  exact ⟨by omega, by exact_mod_cast hle⟩

theorem le_round_natCast {n : ℕ} (h : 2 ^ 53 ≤ n) : 2 ^ 53 ≤ round n := by
  obtain ⟨hexponent, hdigits⟩ := lastExponent_natCast h
  have hunit : (0 : ℚ) < 2 ^ lastExponent n := by positivity
  have hrounded : 2 ^ 52 ≤ roundEven (n / 2 ^ lastExponent n) := by
    refine le_trans (Int.le_floor.mpr ?_) (floor_le_roundEven _)
    rw [le_div_iff₀ hunit]
    exact_mod_cast hdigits
  have hlarge : (2 : ℚ) ≤ 2 ^ lastExponent n := by
    have hmono := zpow_le_zpow_right₀ (by norm_num : (1 : ℚ) ≤ 2) hexponent
    rwa [zpow_one] at hmono
  have hcast : (2 : ℚ) ^ 52 ≤ roundEven (n / 2 ^ lastExponent n) := by exact_mod_cast hrounded
  calc (2 : ℚ) ^ 53 = 2 ^ 52 * 2 := by norm_num
    _ ≤ (roundEven (n / 2 ^ lastExponent n) : ℚ) * 2 ^ lastExponent (n : ℚ) :=
      mul_le_mul hcast hlarge (by norm_num) ((by norm_num : (0 : ℚ) ≤ 2 ^ 52).trans hcast)

/-- A natural number is rounded to a natural number. -/
theorem exists_round_natCast (n : ℕ) : ∃ m : ℕ, round n = m := by
  rcases lt_or_ge n (2 ^ 53) with h | h
  · exact ⟨n, round_natCast h⟩
  obtain ⟨k, hk⟩ := Int.eq_ofNat_of_zero_le (zero_le_one.trans (lastExponent_natCast h).1)
  obtain ⟨m, hm⟩ : ∃ m : ℕ, roundEven (n / 2 ^ lastExponent n) = m := by
    refine Int.eq_ofNat_of_zero_le (le_trans (Int.floor_nonneg.mpr ?_) (floor_le_roundEven _))
    positivity
  refine ⟨m * 2 ^ k, ?_⟩
  unfold round
  rw [hm, hk, zpow_natCast]
  push_cast
  rfl

/-- So the floor drops nothing. -/
theorem natCast_roundNat (n : ℕ) : (roundNat round n : ℚ) = round n := by
  obtain ⟨m, hm⟩ := exists_round_natCast n
  unfold roundNat
  rw [hm, Nat.floor_natCast]

/-! ## Sums -/

/-- A sum that is rounded after each term. -/
def roundedSum (nat : ℕ → ℕ) (terms : List ℕ) : ℕ := terms.foldl (fun sum term => nat (sum + term)) 0

/-- None of the sums on the way is rounded. -/
def ExactSums (nat : ℕ → ℕ) (terms : List ℕ) : Prop := ∀ first, first <+: terms → nat first.sum = first.sum

/-- Numbers below the bound are kept, and no other gets below it. -/
structure ExactBelow (nat : ℕ → ℕ) (bound : ℕ) : Prop where
  exact : ∀ n, n < bound → nat n = n
  large : ∀ n, bound ≤ n → bound ≤ nat n

theorem exactBelow_roundNat : ExactBelow (roundNat round) (2 ^ 53) := by
  refine ⟨fun n h => ?_, fun n h => ?_⟩
  · have hround := natCast_roundNat n
    rw [round_natCast h] at hround
    exact_mod_cast hround
  · have hround := le_round_natCast h
    rw [← natCast_roundNat] at hround
    exact_mod_cast hround

section
variable {nat : ℕ → ℕ} {bound : ℕ} {terms : List ℕ}

theorem roundedSum_snoc (nat : ℕ → ℕ) (terms : List ℕ) (term : ℕ) :
    roundedSum nat (terms ++ [term]) = nat (roundedSum nat terms + term) := by
  unfold roundedSum
  rw [List.foldl_append]
  rfl

theorem roundedSum_of_exact (h : ExactSums nat terms) : roundedSum nat terms = terms.sum := by
  induction terms using List.reverseRecOn with
  | nil => rfl
  | append_singleton terms term ih =>
    have hinit := ih fun first hfirst => h first (hfirst.trans (List.prefix_append _ _))
    have hlast := h (terms ++ [term]) List.prefix_rfl
    rw [List.sum_append, List.sum_singleton] at hlast
    rw [roundedSum_snoc, hinit, hlast, List.sum_append, List.sum_singleton]

theorem ExactBelow.exactSums (h : ExactBelow nat bound) (hsum : terms.sum < bound) : ExactSums nat terms :=
  fun _ hfirst => h.exact _ (lt_of_le_of_lt (hfirst.sublist.sum_le_sum fun _ _ => Nat.zero_le _) hsum)

theorem ExactBelow.le_roundedSum (h : ExactBelow nat bound) (hsum : bound ≤ terms.sum) (hpos : 0 < bound) :
    bound ≤ roundedSum nat terms := by
  induction terms using List.reverseRecOn with
  | nil => exact absurd hsum (not_le.mpr hpos)
  | append_singleton terms term ih =>
    rw [List.sum_append, List.sum_singleton] at hsum
    rw [roundedSum_snoc]
    refine h.large _ ?_
    rcases lt_or_ge terms.sum bound with hlt | hle
    · rwa [roundedSum_of_exact (h.exactSums hlt)]
    · exact (ih hle).trans (Nat.le_add_right _ _)

end

end Binary64
