import Mathlib.Algebra.BigOperators.Finprod
import Mathlib.Data.Nat.Bitwise
import Mathlib.Data.Rat.Defs
import Mathlib.Data.Set.Card

/-!
# Powers of two

Rounding a word down to a power of two by smearing its highest bit, and how many
of all words are multiples of a power of two.
-/

namespace PowersOfTwo

/-! ## The highest bit -/

/-- Bit `i` of `n` is set when one of the `s` bits of `m` from `i` on is. -/
def Smeared (m s n : ℕ) : Prop := ∀ i, n.testBit i = true ↔ ∃ j < s, m.testBit (i + j) = true

variable {m s n : ℕ}

theorem smeared_self (m : ℕ) : Smeared m 1 m := by
  intro i
  simp

theorem Smeared.double (h : Smeared m s n) : Smeared m (2 * s) (n ||| n >>> s) := by
  intro i
  rw [Nat.testBit_or, Nat.testBit_shiftRight, Bool.or_eq_true, h i, h (s + i)]
  constructor
  · rintro (⟨j, hj, hbit⟩ | ⟨j, hj, hbit⟩)
    · exact ⟨j, by omega, hbit⟩
    · refine ⟨s + j, by omega, ?_⟩
      rwa [show i + (s + j) = s + i + j by omega]
  · rintro ⟨j, hj, hbit⟩
    by_cases hlow : j < s
    · exact Or.inl ⟨j, hlow, hbit⟩
    · refine Or.inr ⟨j - s, by omega, ?_⟩
      rwa [show s + i + (j - s) = i + j by omega]

/-- Once the window is as wide as the number, all bits up to the highest are set. -/
theorem Smeared.eq (h : Smeared m s n) (hm : m ≠ 0) (hs : m < 2 ^ s) : n = 2 ^ (m.log2 + 1) - 1 := by
  apply Nat.eq_of_testBit_eq
  intro i
  rw [Bool.eq_iff_iff, h i, Nat.testBit_two_pow_sub_one, decide_eq_true_eq]
  constructor
  · rintro ⟨j, -, hbit⟩
    by_contra hi
    have hlt : m < 2 ^ (i + j) := lt_of_lt_of_le Nat.lt_log2_self (Nat.pow_le_pow_right Nat.two_pos (by omega))
    rw [Nat.testBit_lt_two_pow hlt] at hbit
    cases hbit
  · intro hi
    have htop : m.log2 < s := (Nat.log2_lt hm).mpr hs
    refine ⟨m.log2 - i, by omega, ?_⟩
    rw [show i + (m.log2 - i) = m.log2 by omega]
    exact Nat.testBit_log2 hm

theorem ones_sub_half (k : ℕ) : 2 ^ (k + 1) - 1 - (2 ^ (k + 1) - 1) >>> 1 = 2 ^ k := by
  have hpos : 0 < 2 ^ k := Nat.two_pow_pos k
  rw [Nat.shiftRight_eq_div_pow, pow_succ]
  omega

/-! ## Multiples among all words -/

theorem ncard_multiples_below {k : ℕ} (hk : k ≤ n) : Set.ncard {x : ℕ | x < 2 ^ n ∧ x % 2 ^ k = 0} = 2 ^ (n - k) := by
  have hpos : 0 < 2 ^ k := Nat.two_pow_pos k
  have hsplit : 2 ^ n = 2 ^ (n - k) * 2 ^ k := by rw [← pow_add, Nat.sub_add_cancel hk]
  have himage : {x : ℕ | x < 2 ^ n ∧ x % 2 ^ k = 0} = (· * 2 ^ k) '' (Finset.range (2 ^ (n - k)) : Set ℕ) := by
    ext x
    constructor
    · rintro ⟨hx, hmod⟩
      refine ⟨x / 2 ^ k, Finset.mem_coe.mpr (Finset.mem_range.mpr ?_), Nat.div_mul_cancel (Nat.dvd_of_mod_eq_zero hmod)⟩
      rwa [Nat.div_lt_iff_lt_mul hpos, ← hsplit]
    · rintro ⟨y, hy, rfl⟩
      refine ⟨?_, Nat.mul_mod_left y _⟩
      rw [hsplit]
      exact Nat.mul_lt_mul_of_pos_right (Finset.mem_range.mp (Finset.mem_coe.mp hy)) hpos
  have hinj : Function.Injective fun y : ℕ => y * 2 ^ k := fun _ _ h => Nat.eq_of_mul_eq_mul_right hpos h
  rw [himage, Set.ncard_image_of_injective _ hinj, Set.ncard_coe_finset, Finset.card_range]

/-- Words that stand for the numbers below `2 ^ n`, each for one. -/
structure Words (α : Type*) (n : ℕ) where
  value : α → ℕ
  injective : Function.Injective value
  range : Set.range value = {x | x < 2 ^ n}

theorem Words.ncard_multiples {α : Type*} (words : Words α n) {k : ℕ} (hk : k ≤ n) :
    Set.ncard {a | words.value a % 2 ^ k = 0} * 2 ^ k = 2 ^ n := by
  have hpre : {a | words.value a % 2 ^ k = 0} = Set.preimage words.value {x | x < 2 ^ n ∧ x % 2 ^ k = 0} := by
    ext a
    have ha : words.value a ∈ {x | x < 2 ^ n} := words.range ▸ Set.mem_range_self a
    exact ⟨fun h => ⟨ha, h⟩, fun h => h.2⟩
  have hsub : {x : ℕ | x < 2 ^ n ∧ x % 2 ^ k = 0} ⊆ Set.range words.value := by
    rw [words.range]
    exact fun _ h => h.1
  rw [hpre, Set.ncard_preimage_of_injective_subset_range words.injective hsub, ncard_multiples_below hk, ← pow_add,
    Nat.sub_add_cancel hk]

theorem Words.card_eq {α : Type*} (words : Words α n) : Nat.card α = 2 ^ n := by
  have h := words.ncard_multiples (Nat.zero_le n)
  rw [pow_zero, mul_one] at h
  rw [← h, ← Set.ncard_univ]
  congr 1
  ext a
  simp [Nat.mod_one]

/-- The mean when every element is as likely. -/
noncomputable def mean {α : Type*} (f : α → ℕ) : ℚ := (∑ᶠ a, f a : ℕ) / (Nat.card α : ℕ)

theorem mean_zero {α : Type*} : mean (fun _ : α => 0) = 0 := by
  unfold mean
  rw [finsum_zero, Nat.cast_zero, zero_div]

theorem Words.mean_ite {α : Type*} (words : Words α n) (p : α → Prop) [DecidablePred p] (c : ℕ) :
    mean (fun a => if p a then c else 0) = (Set.ncard {a | p a} * c : ℕ) / (2 ^ n : ℕ) := by
  have hcard : 0 < Nat.card α := words.card_eq ▸ Nat.two_pow_pos n
  have hfinite : {a | p a}.Finite := @Set.toFinite _ _ (@Subtype.finite _ (Nat.finite_of_card_ne_zero hcard.ne') _)
  have hsupport : (Function.support fun a => if p a then c else 0) ⊆ ↑hfinite.toFinset := by
    intro a ha
    rw [Finset.mem_coe, Set.Finite.mem_toFinset]
    by_contra hp
    exact ha (if_neg hp)
  have hsum : ∑ a ∈ hfinite.toFinset, (if p a then c else 0) = ∑ _a ∈ hfinite.toFinset, c :=
    Finset.sum_congr rfl fun a ha => if_pos (hfinite.mem_toFinset.mp ha)
  unfold mean
  rw [words.card_eq, finsum_eq_sum_of_support_subset _ hsupport, hsum,
    Finset.sum_const, ← Set.ncard_eq_toFinset_card _ hfinite, smul_eq_mul]

end PowersOfTwo
