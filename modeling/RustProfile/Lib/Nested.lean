import Mathlib.Data.List.Basic
import Mathlib.Order.Lattice

/-!
# Nested frames

A frame has a path and takes an interval. Frames are nested below a path when
each lies over the frame of its parent's path, and siblings lie one after the
other. A picture of nested frames is put together from pictures next to each
other and from frames with a picture over them.
-/

structure Frames (φ α K : Type*) where
  path : φ → List α
  left : φ → K
  right : φ → K

namespace Frames

variable {φ α K : Type*} [Preorder K] (s : Frames φ α K)

def Within (inner outer : φ) : Prop := s.left outer ≤ s.left inner ∧ s.right inner ≤ s.right outer

def Apart (f g : φ) : Prop := (s.path f).dropLast = (s.path g).dropLast → s.right f ≤ s.left g

/-- The frames of a part of the picture, from `left` to `right`, below `path`. -/
structure Nested (path : List α) (left right : K) (drawn : List φ) : Prop where
  begins : ∀ f ∈ drawn, left ≤ s.left f
  ends : ∀ f ∈ drawn, s.right f ≤ right
  below : ∀ f ∈ drawn, ∃ a suffix, s.path f = path ++ a :: suffix
  parent : ∀ f ∈ drawn, (s.path f).dropLast = path ∨ ∃ g ∈ drawn, s.path g = (s.path f).dropLast ∧ s.Within f g
  apart : drawn.Pairwise s.Apart

variable {s} {path : List α} {left right : K} {drawn : List φ}

theorem nested_nil : s.Nested path left right [] :=
  ⟨fun _ h => absurd h List.not_mem_nil, fun _ h => absurd h List.not_mem_nil, fun _ h => absurd h List.not_mem_nil,
    fun _ h => absurd h List.not_mem_nil, List.Pairwise.nil⟩

theorem Nested.mono (h : s.Nested path left right drawn) {left' right' : K} (hl : left' ≤ left) (hr : right ≤ right') :
    s.Nested path left' right' drawn :=
  ⟨fun f hf => hl.trans (h.begins f hf), fun f hf => (h.ends f hf).trans hr, h.below, h.parent, h.apart⟩

theorem Nested.append {middle : K} {drawn' : List φ} (h : s.Nested path left middle drawn)
    (h' : s.Nested path middle right drawn') (hl : left ≤ middle) (hr : middle ≤ right) :
    s.Nested path left right (drawn ++ drawn') := by
  obtain ⟨hleft, hright, hpath, hparent, hapart⟩ := h.mono (le_refl left) hr
  obtain ⟨hleft', hright', hpath', hparent', hapart'⟩ := h'.mono hl (le_refl right)
  refine ⟨List.forall_mem_append.mpr ⟨hleft, hleft'⟩, List.forall_mem_append.mpr ⟨hright, hright'⟩,
    List.forall_mem_append.mpr ⟨hpath, hpath'⟩, List.forall_mem_append.mpr ⟨fun f hf => ?_, fun f hf => ?_⟩,
    List.pairwise_append.mpr ⟨hapart, hapart', fun f hf g hg _ => (h.ends f hf).trans (h'.begins g hg)⟩⟩
  · refine (hparent f hf).imp id ?_
    rintro ⟨g, hg, hover⟩
    exact ⟨g, List.mem_append_left _ hg, hover⟩
  · refine (hparent' f hf).imp id ?_
    rintro ⟨g, hg, hover⟩
    exact ⟨g, List.mem_append_right _ hg, hover⟩

theorem Nested.over {f : φ} {a : α} (hf : s.path f = path ++ [a])
    (h : s.Nested (path ++ [a]) (s.left f) (s.right f) drawn) :
    s.Nested path (s.left f) (s.right f) (f :: drawn) := by
  refine ⟨List.forall_mem_cons.mpr ⟨le_refl _, h.begins⟩, List.forall_mem_cons.mpr ⟨le_refl _, h.ends⟩,
    List.forall_mem_cons.mpr ⟨⟨a, [], hf⟩, fun g hg => ?_⟩,
    List.forall_mem_cons.mpr ⟨Or.inl (by rw [hf, List.dropLast_concat]), fun g hg => Or.inr ?_⟩,
    List.pairwise_cons.mpr ⟨fun g hg hsibling => ?_, h.apart⟩⟩
  · obtain ⟨b, suffix, hpath⟩ := h.below g hg
    exact ⟨a, b :: suffix, by rw [hpath, List.append_assoc]; rfl⟩
  · rcases h.parent g hg with hparent | ⟨outer, houter, hpath, hwithin⟩
    · exact ⟨f, List.mem_cons_self, hf.trans hparent.symm, h.begins g hg, h.ends g hg⟩
    · exact ⟨outer, List.mem_cons_of_mem _ houter, hpath, hwithin⟩
  · -- a frame over the first is no sibling of it
    obtain ⟨b, suffix, hpath⟩ := h.below g hg
    rw [hf, hpath, List.dropLast_concat, List.dropLast_append_of_ne_nil (List.cons_ne_nil b suffix)] at hsibling
    have hlength := congrArg List.length hsibling
    simp at hlength

end Frames
