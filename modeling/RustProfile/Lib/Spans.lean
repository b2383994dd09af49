import Mathlib.Data.List.Basic
import Mathlib.Order.Lattice

/-!
# Separated spans

Half-open spans that are not empty, each ending before the next begins, are
determined by the points that they cover.
-/

structure Spans (ρ K : Type*) where
  start : ρ → K
  stop : ρ → K
  ext : ∀ {a b}, start a = start b → stop a = stop b → a = b

namespace Spans

variable {ρ K : Type*} [LinearOrder K] (s : Spans ρ K)

def Covers (spans : List ρ) (x : K) : Prop := ∃ a ∈ spans, s.start a ≤ x ∧ x < s.stop a

structure Separated (spans : List ρ) : Prop where
  nonempty : ∀ a ∈ spans, s.start a < s.stop a
  apart : spans.Pairwise fun a b => s.stop a < s.start b

variable {s} {a b : ρ} {as bs : List ρ} {x : K}

theorem covers_cons : s.Covers (a :: as) x ↔ (s.start a ≤ x ∧ x < s.stop a) ∨ s.Covers as x := by
  unfold Covers
  simp only [List.mem_cons, exists_eq_or_imp]

namespace Separated

theorem tail (h : s.Separated (a :: as)) : s.Separated as :=
  ⟨fun b hb => h.nonempty b (List.mem_cons_of_mem _ hb), (List.pairwise_cons.mp h.apart).2⟩

theorem covers_start (h : s.Separated (a :: as)) : s.Covers (a :: as) (s.start a) :=
  ⟨a, List.mem_cons_self, le_refl _, h.nonempty a List.mem_cons_self⟩

/-- What the later spans cover lies above the first. -/
theorem lt_of_covers_tail (h : s.Separated (a :: as)) (hx : s.Covers as x) : s.stop a < x := by
  obtain ⟨b, hb, hle, -⟩ := hx
  exact lt_of_lt_of_le ((List.pairwise_cons.mp h.apart).1 b hb) hle

theorem start_le_of_covers (h : s.Separated (a :: as)) (hx : s.Covers (a :: as) x) : s.start a ≤ x := by
  rcases covers_cons.mp hx with hin | htail
  · exact hin.1
  · exact le_of_lt (lt_trans (h.nonempty a List.mem_cons_self) (h.lt_of_covers_tail htail))

/-- The first span goes on as long as the points are covered. -/
theorem stop_le_stop (ha : s.Separated (a :: as)) (hstart : s.start a = s.start b)
    (h : ∀ x, s.Covers (b :: bs) x → s.Covers (a :: as) x) : s.stop b ≤ s.stop a := by
  by_contra hlt
  have hlt := lt_of_not_ge hlt
  have hin : s.Covers (b :: bs) (s.stop a) := by
    refine ⟨b, List.mem_cons_self, ?_, hlt⟩
    rw [← hstart]
    exact le_of_lt (ha.nonempty a List.mem_cons_self)
  rcases covers_cons.mp (h _ hin) with hself | htail
  · exact lt_irrefl _ hself.2
  · exact lt_irrefl _ (ha.lt_of_covers_tail htail)

theorem covers_tail_iff (h : s.Separated (a :: as)) : s.Covers as x ↔ s.Covers (a :: as) x ∧ s.stop a < x := by
  rw [covers_cons]
  constructor
  · intro hx
    exact ⟨Or.inr hx, h.lt_of_covers_tail hx⟩
  · rintro ⟨hin | hx, hlt⟩
    · exact absurd hin.2 (lt_asymm hlt)
    · exact hx

end Separated

theorem eq_of_covers : ∀ {as bs : List ρ}, s.Separated as → s.Separated bs →
    (∀ x, s.Covers as x ↔ s.Covers bs x) → as = bs
  | [], [], _, _, _ => rfl
  | [], b :: bs, _, hb, h => by
    obtain ⟨a, ha, -⟩ := (h _).mpr hb.covers_start
    cases ha
  | a :: as, [], ha, _, h => by
    obtain ⟨b, hb, -⟩ := (h _).mp ha.covers_start
    cases hb
  | a :: as, b :: bs, ha, hb, h => by
    have hstart : s.start a = s.start b :=
      le_antisymm (ha.start_le_of_covers ((h _).mpr hb.covers_start)) (hb.start_le_of_covers ((h _).mp ha.covers_start))
    have hstop : s.stop a = s.stop b :=
      le_antisymm (hb.stop_le_stop hstart.symm fun x => (h x).mp) (ha.stop_le_stop hstart fun x => (h x).mpr)
    obtain rfl := s.ext hstart hstop
    refine congrArg (a :: ·) (eq_of_covers ha.tail hb.tail fun x => ?_)
    rw [ha.covers_tail_iff, hb.covers_tail_iff, h]

end Spans
