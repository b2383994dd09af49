import Mathlib.Data.List.Basic
import Mathlib.Data.Int.Order.Basic

/-!
# Rendered integers

An integer can be read back from its decimal digits, also from a text that goes
on after a character that is no digit.
-/

namespace Rendering

theorem append_cons_inj {α : Type*} [DecidableEq α] {x : α} {l l' s t : List α} (hl : x ∉ l) (hl' : x ∉ l')
    (h : l ++ x :: s = l' ++ x :: t) : l = l' ∧ s = t := by
  have htake : ∀ {l s : List α}, x ∉ l → (l ++ x :: s).takeWhile (· ≠ x) = l := by
    intro l s hx
    have hall : ∀ a ∈ l, decide (a ≠ x) = true := by
      intro a ha
      rw [decide_eq_true_eq]
      rintro rfl
      exact hx ha
    rw [List.takeWhile_append_of_pos hall]
    simp
  have hll : l = l' := by rw [← htake (s := s) hl, h, htake hl']
  subst hll
  rw [List.append_cancel_left_eq, List.cons.injEq] at h
  exact ⟨rfl, h.2⟩

theorem natRepr_injective {m n : ℕ} (h : m.repr = n.repr) : m = n := by
  have hdigits := congrArg String.toList h
  rw [Nat.toList_repr, Nat.toList_repr] at hdigits
  rw [← @Nat.ofDigitChars_ten_toDigits m, hdigits, Nat.ofDigitChars_ten_toDigits]

theorem notMem_natRepr {c : Char} (hc : c.isDigit = false) (n : ℕ) : c ∉ n.repr.toList := by
  intro h
  rw [Nat.toList_repr] at h
  rw [Nat.isDigit_of_mem_toDigits (by decide) (by decide) h] at hc
  cases hc

theorem intRepr_toList (a : ℤ) :
    a.repr.toList = if 0 ≤ a then a.toNat.repr.toList else '-' :: (-a).toNat.repr.toList := by
  rw [Int.repr_eq_if]
  split
  · rfl
  · rw [String.toList_append]
    rfl

theorem notMem_intRepr {c : Char} (hc : c.isDigit = false) (hm : c ≠ '-') (a : ℤ) : c ∉ a.repr.toList := by
  rw [intRepr_toList]
  split
  · exact notMem_natRepr hc _
  · rw [List.mem_cons, not_or]
    exact ⟨hm, notMem_natRepr hc _⟩

theorem intRepr_injective {a b : ℤ} (h : a.repr.toList = b.repr.toList) : a = b := by
  have hminus : ∀ n : ℕ, '-' ∉ n.repr.toList := notMem_natRepr rfl
  have hnat : ∀ {m n : ℕ}, m.repr.toList = n.repr.toList → m = n := fun h => natRepr_injective (String.toList_inj.mp h)
  rw [intRepr_toList, intRepr_toList] at h
  by_cases ha : 0 ≤ a
  · rw [if_pos ha] at h
    by_cases hb : 0 ≤ b
    · rw [if_pos hb] at h
      have := hnat h
      omega
    · rw [if_neg hb] at h
      exact (hminus a.toNat (h ▸ List.mem_cons_self)).elim
  · rw [if_neg ha] at h
    by_cases hb : 0 ≤ b
    · rw [if_pos hb] at h
      exact (hminus b.toNat (h ▸ List.mem_cons_self)).elim
    · rw [if_neg hb, List.cons.injEq] at h
      have := hnat h.2
      omega

theorem toString_colon_injective {a b : ℤ} {s t : String} (h : toString a ++ ":" ++ s = toString b ++ ":" ++ t) :
    a = b ∧ s = t := by
  have hlist := congrArg String.toList h
  simp only [String.toList_append, List.append_assoc, Int.toString_eq_repr] at hlist
  obtain ⟨ha, hs⟩ := append_cons_inj (notMem_intRepr rfl (by decide) a) (notMem_intRepr rfl (by decide) b) hlist
  exact ⟨intRepr_injective ha, String.toList_inj.mp hs⟩

end Rendering
