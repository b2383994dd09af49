import RustProfile.HeapBpf
import RustProfile.Lib.PowersOfTwo

/-!
# Sampling is unbiased

The weight of an allocation is the highest bit of `interval / size`. An
allocation of weight `2 ^ k` is sampled when the low `k` bits of the random
word are zero, which they are in one of `2 ^ k` words.
-/

namespace RustProfile

open PowersOfTwo

/-! ## The weight -/

theorem Smeared.word {m : ℕ} {x k : UInt64} (h : Smeared m k.toNat x.toNat) (hk : k.toNat < 64) :
    Smeared m (2 * k.toNat) (x ||| x >>> k).toNat := by
  rw [UInt64.toNat_or, UInt64.toNat_shiftRight, Nat.mod_eq_of_lt hk]
  exact h.double

def Unscaled (config : BpfConfig) (size : UInt64) : Prop :=
  size = 0 ∨ size ≥ config.allocationInterval ∨ config.allocationInterval = 0

section
variable {config : BpfConfig} {size : UInt64}

theorem ratio_pos (h : ¬ Unscaled config size) : 0 < config.allocationInterval.toNat / size.toNat := by
  obtain ⟨hsize, hlt, -⟩ : size ≠ 0 ∧ ¬ size ≥ config.allocationInterval ∧ config.allocationInterval ≠ 0 := by
    simpa [Unscaled] using h
  have hpos : 0 < size.toNat := Nat.pos_of_ne_zero fun h0 => hsize (UInt64.toNat_inj.mp h0)
  rw [ge_iff_le, UInt64.le_iff_toNat_le] at hlt
  exact Nat.div_pos (by omega) hpos

theorem samplingWeight_unscaled (h : Unscaled config size) : samplingWeight config size = 1 := if_pos h

theorem samplingWeight_scaled (h : ¬ Unscaled config size) :
    (samplingWeight config size).toNat = 2 ^ (config.allocationInterval.toNat / size.toNat).log2 := by
  have hguard := h
  rw [Unscaled] at hguard
  unfold samplingWeight
  rw [if_neg hguard]
  extract_lets r0 r1 r2 r3 r4 r5 r6
  have hr0 : r0.toNat = config.allocationInterval.toNat / size.toNat := UInt64.toNat_div _ _
  rw [← hr0]
  have h1 : Smeared r0.toNat 2 r1.toNat := Smeared.word (k := 1) (smeared_self r0.toNat) (by decide)
  have h2 : Smeared r0.toNat 4 r2.toNat := Smeared.word (k := 2) h1 (by decide)
  have h3 : Smeared r0.toNat 8 r3.toNat := Smeared.word (k := 4) h2 (by decide)
  have h4 : Smeared r0.toNat 16 r4.toNat := Smeared.word (k := 8) h3 (by decide)
  have h5 : Smeared r0.toNat 32 r5.toNat := Smeared.word (k := 16) h4 (by decide)
  have h6 : Smeared r0.toNat 64 r6.toNat := Smeared.word (k := 32) h5 (by decide)
  have hones := h6.eq (hr0 ▸ (ratio_pos h).ne') r0.toNat_lt
  have hhalf : (r6 >>> 1).toNat = r6.toNat >>> 1 := UInt64.toNat_shiftRight r6 1
  rw [UInt64.toNat_sub_of_le, hhalf, hones, ones_sub_half]
  rw [UInt64.le_iff_toNat_le, hhalf, Nat.shiftRight_eq_div_pow]
  exact Nat.div_le_self _ _

theorem exists_samplingWeight (config : BpfConfig) (size : UInt64) :
    ∃ k < 64, (samplingWeight config size).toNat = 2 ^ k := by
  by_cases h : Unscaled config size
  · exact ⟨0, by decide, by rw [samplingWeight_unscaled h]; rfl⟩
  · refine ⟨_, ?_, samplingWeight_scaled h⟩
    rw [← Nat.pow_lt_pow_iff_right Nat.one_lt_two, ← samplingWeight_scaled h]
    exact UInt64.toNat_lt _

end

/-! ## The random words -/

def singleWords : Words UInt32 32 where
  value := UInt32.toNat
  injective _ _ h := UInt32.toNat_inj.mp h
  range := by
    ext x
    constructor
    · rintro ⟨word, rfl⟩
      exact word.toNat_lt
    · intro hx
      exact ⟨UInt32.ofNat x, UInt32.toNat_ofNat_of_lt' hx⟩

/-- Two words are the halves of a number, the higher first. -/
def pairWords : Words (UInt32 × UInt32) 64 where
  value words := words.1.toNat * 2 ^ 32 + words.2.toNat
  injective := by
    rintro ⟨high, low⟩ ⟨high', low'⟩ h
    have hlow := low.toNat_lt
    have hlow' := low'.toNat_lt
    dsimp only at h
    exact Prod.ext (UInt32.toNat_inj.mp (by dsimp only; omega)) (UInt32.toNat_inj.mp (by dsimp only; omega))
  range := by
    ext x
    constructor
    · rintro ⟨⟨high, low⟩, rfl⟩
      have hhigh := high.toNat_lt
      have hlow := low.toNat_lt
      show high.toNat * 2 ^ 32 + low.toNat < 2 ^ 64
      omega
    · intro hx
      have hx : x < 2 ^ 64 := hx
      refine ⟨(UInt32.ofNat (x / 2 ^ 32), UInt32.ofNat (x % 2 ^ 32)), ?_⟩
      show (UInt32.ofNat (x / 2 ^ 32)).toNat * 2 ^ 32 + (UInt32.ofNat (x % 2 ^ 32)).toNat = x
      rw [UInt32.toNat_ofNat_of_lt' (by show x / 2 ^ 32 < 2 ^ 32; omega),
        UInt32.toNat_ofNat_of_lt' (by show x % 2 ^ 32 < 2 ^ 32; omega)]
      omega

theorem toNat_shl_or (high low : UInt32) :
    ((high.toUInt64 <<< 32) ||| low.toUInt64).toNat = high.toNat * 2 ^ 32 + low.toNat := by
  have hhigh := high.toNat_lt
  have hlow := low.toNat_lt
  have hshift : (high.toUInt64 <<< 32).toNat = high.toNat <<< 32 := by
    rw [UInt64.toNat_shiftLeft, UInt32.toNat_toUInt64]
    refine Nat.mod_eq_of_lt ?_
    show high.toNat <<< 32 < 2 ^ 64
    rw [Nat.shiftLeft_eq]
    omega
  rw [UInt64.toNat_or, hshift, UInt32.toNat_toUInt64, ← Nat.shiftLeft_add_eq_or_of_lt hlow, Nat.shiftLeft_eq]

/-- The number that `should_sample` draws. -/
def drawn (words : UInt32 × UInt32) (weight : UInt64) : ℕ :=
  if weight.toNat ≤ 2 ^ 32 then singleWords.value words.1 else pairWords.value words

theorem wide_iff (weight : UInt64) : weight > 0x100000000 ↔ ¬ weight.toNat ≤ 2 ^ 32 :=
  UInt64.lt_iff_toNat_lt.trans not_le.symm

theorem shouldSample_iff (hit : ProbeHit) {weight : UInt64} {k : ℕ} (hw : weight.toNat = 2 ^ k) :
    shouldSample hit weight = true ↔ drawn hit.random weight % 2 ^ k = 0 := by
  have hpos : 0 < 2 ^ k := Nat.two_pow_pos k
  unfold shouldSample
  by_cases hone : weight ≤ 1
  · rw [if_pos hone]
    rw [UInt64.le_iff_toNat_le, hw] at hone
    have hone : 2 ^ k = 1 := le_antisymm hone hpos
    simp [hone, Nat.mod_one]
  · rw [if_neg hone]
    extract_lets first random
    have hrandom : random.toNat = drawn hit.random weight := by
      unfold random drawn
      by_cases hwide : weight > 0x100000000
      · rw [if_pos hwide, if_neg ((wide_iff weight).mp hwide)]
        exact toNat_shl_or _ _
      · rw [if_neg hwide, if_pos (not_not.mp (mt (wide_iff weight).mpr hwide))]
        exact UInt32.toNat_toUInt64 _
    have hmask : (weight - 1).toNat = 2 ^ k - 1 := by
      rw [UInt64.toNat_sub_of_le, hw]
      · rfl
      · rw [UInt64.le_iff_toNat_le, hw]
        exact hpos
    rw [decide_eq_true_eq, ← UInt64.toNat_inj, UInt64.toNat_and, hmask, Nat.and_two_pow_sub_one_eq_mod, hrandom]
    rfl

theorem ncard_single_sampled (hit : ProbeHit) {weight : UInt64} {k : ℕ} (hw : weight.toNat = 2 ^ k)
    (hnarrow : weight.toNat ≤ 2 ^ 32) (other : UInt32) :
    Set.ncard {word | shouldSample { hit with random := (word, other) } weight = true} * weight.toNat =
      Nat.card UInt32 := by
  have hk : k ≤ 32 := by
    rw [hw] at hnarrow
    exact (Nat.pow_le_pow_iff_right Nat.one_lt_two).mp hnarrow
  have hset : {word | shouldSample { hit with random := (word, other) } weight = true} =
      {word | singleWords.value word % 2 ^ k = 0} := by
    ext word
    refine (shouldSample_iff _ hw).trans ?_
    rw [drawn, if_pos hnarrow]
    rfl
  rw [hset, hw, singleWords.ncard_multiples hk, singleWords.card_eq]

theorem card_pairs : Nat.card (UInt32 × UInt32) = Nat.card UInt32 * 2 ^ 32 := by
  rw [pairWords.card_eq, singleWords.card_eq, ← pow_add]

/-- A weight that one word settles leaves the second word free. -/
theorem ncard_pair_sampled (hit : ProbeHit) {weight : UInt64} {k : ℕ} (hw : weight.toNat = 2 ^ k) (hk : k < 64) :
    Set.ncard {words | shouldSample { hit with random := words } weight = true} * weight.toNat =
      Nat.card (UInt32 × UInt32) := by
  by_cases hnarrow : weight.toNat ≤ 2 ^ 32
  · have hset : {words | shouldSample { hit with random := words } weight = true} =
        {word | shouldSample { hit with random := (word, 0) } weight = true} ×ˢ (Set.univ : Set UInt32) := by
      ext ⟨word, other⟩
      have hiff : ∀ other', shouldSample { hit with random := (word, other') } weight = true ↔
          singleWords.value word % 2 ^ k = 0 := by
        intro other'
        refine (shouldSample_iff _ hw).trans ?_
        rw [drawn, if_pos hnarrow]
      constructor
      · intro h
        exact ⟨(hiff 0).mpr ((hiff other).mp h), trivial⟩
      · rintro ⟨h, -⟩
        exact (hiff other).mpr ((hiff 0).mp h)
    rw [hset, Set.ncard_prod, Set.ncard_univ, mul_right_comm, ncard_single_sampled hit hw hnarrow 0, card_pairs,
      singleWords.card_eq]
  · have hset : {words | shouldSample { hit with random := words } weight = true} =
        {words | pairWords.value words % 2 ^ k = 0} := by
      ext words
      refine (shouldSample_iff _ hw).trans ?_
      rw [drawn, if_neg hnarrow]
      rfl
    rw [hset, hw, pairWords.ncard_multiples hk.le, pairWords.card_eq]

/-! ## The expected count -/

/-- What an allocation adds to the weighted count. -/
def HeapBpf.countedWeight (self : HeapBpf) (config : BpfConfig) (hit : ProbeHit) (size oldPtr outputPtr : UInt64)
    (operation : Operation) : ℕ :=
  match self.begunAllocation config hit size oldPtr outputPtr operation with
  | some value => if value.sampled then value.weight.toNat else 0
  | none => 0

theorem countedWeight_eq (heap : HeapBpf) (config : BpfConfig) (hit : ProbeHit) (size oldPtr outputPtr : UInt64)
    (operation : Operation) : heap.countedWeight config hit size oldPtr outputPtr operation =
      if size ≠ 0 ∧ shouldSample hit (samplingWeight config size) = true then (samplingWeight config size).toNat
      else 0 := by
  have hsampled : (decide (size ≠ 0) && shouldSample hit (samplingWeight config size)) = true ↔
      size ≠ 0 ∧ shouldSample hit (samplingWeight config size) = true := by
    rw [Bool.and_eq_true, decide_eq_true_eq]
  unfold HeapBpf.countedWeight HeapBpf.begunAllocation
  extract_lets weight sampled oldToken
  clear_value oldToken
  by_cases h : size ≠ 0 ∧ shouldSample hit (samplingWeight config size) = true
  · have hs : sampled = true := hsampled.mpr h
    rw [if_pos h, hs]
    rfl
  · have hs : sampled = false := Bool.eq_false_iff.mpr (mt hsampled.mp h)
    rw [if_neg h, hs]
    cases oldToken with
    | none => rfl
    | some token => rfl

theorem mean_countedWeight_zero (heap : HeapBpf) (config : BpfConfig) (hit : ProbeHit) (oldPtr outputPtr : UInt64)
    (operation : Operation) :
    mean (fun words => heap.countedWeight config { hit with random := words } 0 oldPtr outputPtr operation) = 0 := by
  have hzero : (fun words => heap.countedWeight config { hit with random := words } 0 oldPtr outputPtr operation) =
      fun _ => 0 := by
    funext words
    rw [countedWeight_eq]
    exact if_neg fun h => h.1 rfl
  rw [hzero, mean_zero]

theorem mean_countedWeight (heap : HeapBpf) (config : BpfConfig) (hit : ProbeHit) {size : UInt64} (hsize : size ≠ 0)
    (oldPtr outputPtr : UInt64) (operation : Operation) :
    mean (fun words => heap.countedWeight config { hit with random := words } size oldPtr outputPtr operation) = 1 := by
  obtain ⟨k, hk, hw⟩ := exists_samplingWeight config size
  have hcounted : (fun words =>
      heap.countedWeight config { hit with random := words } size oldPtr outputPtr operation) =
      fun words => if shouldSample { hit with random := words } (samplingWeight config size) = true then
        (samplingWeight config size).toNat else 0 := by
    funext words
    rw [countedWeight_eq]
    simp only [ne_eq, hsize, not_false_eq_true, true_and]
  rw [hcounted, pairWords.mean_ite, ncard_pair_sampled hit hw hk, pairWords.card_eq]
  exact div_self (Nat.cast_ne_zero.mpr (Nat.two_pow_pos 64).ne')

/-- An allocation of no bytes is never sampled. -/
theorem sampling_unbiased (config : BpfConfig) (size : UInt64) (hit : ProbeHit) (heap : HeapBpf)
    (oldPtr outputPtr : UInt64) (operation : Operation) :
    (size = 0 ∨ config.allocationInterval = 0 ∨ config.allocationInterval ≤ size → samplingWeight config size = 1) ∧
    (¬ (size = 0 ∨ config.allocationInterval = 0 ∨ config.allocationInterval ≤ size) →
      ∃ k, (samplingWeight config size).toNat = 2 ^ k ∧
        2 ^ k ≤ config.allocationInterval.toNat / size.toNat ∧
        config.allocationInterval.toNat / size.toNat < 2 * 2 ^ k) ∧
    ((samplingWeight config size).toNat ≤ 2 ^ 32 → ∀ other,
      Set.ncard {word | shouldSample { hit with random := (word, other) } (samplingWeight config size) = true} *
        (samplingWeight config size).toNat = Nat.card UInt32) ∧
    (2 ^ 32 < (samplingWeight config size).toNat →
      Set.ncard {words | shouldSample { hit with random := words } (samplingWeight config size) = true} *
        (samplingWeight config size).toNat = Nat.card (UInt32 × UInt32)) ∧
    mean (fun words => heap.countedWeight config { hit with random := words } size oldPtr outputPtr operation) =
      if size = 0 then 0 else 1 := by
  have hguard : size = 0 ∨ config.allocationInterval = 0 ∨ config.allocationInterval ≤ size ↔ Unscaled config size := by
    rw [Unscaled, ge_iff_le, @or_comm (config.allocationInterval ≤ size)]
  obtain ⟨k, hk, hw⟩ := exists_samplingWeight config size
  refine ⟨fun h => samplingWeight_unscaled (hguard.mp h), fun h => ?_, fun h => ncard_single_sampled hit hw h,
    fun _ => ncard_pair_sampled hit hw hk, ?_⟩
  · have hscaled := mt hguard.mpr h
    have hratio := (ratio_pos hscaled).ne'
    refine ⟨_, samplingWeight_scaled hscaled, Nat.log2_self_le hratio, ?_⟩
    rw [← Nat.pow_succ']
    exact Nat.lt_log2_self
  · by_cases hsize : size = 0
    · rw [if_pos hsize, hsize]
      exact mean_countedWeight_zero heap config hit oldPtr outputPtr operation
    · rw [if_neg hsize]
      exact mean_countedWeight heap config hit hsize oldPtr outputPtr operation

theorem emptyAllocation_uncounted :
    mean (fun words => HeapBpf.loaded.countedWeight { allocationInterval := 4096, selectedUnwindMode := 0 }
      { tid := 1, random := words } 0 0 0 .alloc) ≠ 1 := by
  have h := mean_countedWeight_zero HeapBpf.loaded { allocationInterval := 4096, selectedUnwindMode := 0 } { tid := 1 }
    0 0 .alloc
  rw [h]
  exact zero_ne_one

end RustProfile
