import Mathlib.Data.List.Forall2

/-!
# Computations that may fail

When a chain of fallible steps succeeds, and where it fails.
-/

namespace Except

variable {ε α β : Type}

def context (value : Option α) (error : ε) : Except ε α :=
  match value with
  | some a => .ok a
  | none => .error error

theorem context_error {value : Option α} {error e : ε} (h : context value error = .error e) : e = error := by
  cases value with
  | none =>
    cases h
    rfl
  | some a => cases h

theorem ok_bind (a : α) (f : α → Except ε β) : Except.ok a >>= f = f a := rfl

theorem bind_eq_ok {x : Except ε α} {f : α → Except ε β} {b : β} :
    x >>= f = .ok b ↔ ∃ a, x = .ok a ∧ f a = .ok b := by
  cases x with
  | error e =>
    constructor
    · intro h
      cases h
    · rintro ⟨a, h, -⟩
      cases h
  | ok a => simp [bind, Except.bind]

theorem bind_eq_error {x : Except ε α} {f : α → Except ε β} {e : ε} :
    x >>= f = .error e ↔ x = .error e ∨ ∃ a, x = .ok a ∧ f a = .error e := by
  cases x with
  | error e' => simp [bind, Except.bind]
  | ok a => simp [bind, Except.bind]

theorem mapM_eq_ok {f : α → Except ε β} : ∀ {items : List α} {out : List β},
    items.mapM f = .ok out → List.Forall₂ (fun a b => f a = .ok b) items out
  | [], out, h => by
    rw [List.mapM_nil] at h
    cases h
    exact List.Forall₂.nil
  | a :: items, out, h => by
    rw [List.mapM_cons] at h
    obtain ⟨b, hb, h⟩ := bind_eq_ok.mp h
    obtain ⟨bs, hbs, h⟩ := bind_eq_ok.mp h
    cases h
    exact List.Forall₂.cons hb (mapM_eq_ok hbs)

theorem forall_of_forall₂ {R : α → β → Prop} {p : β → Prop} (hp : ∀ a b, R a b → p b) :
    ∀ {as : List α} {bs : List β}, List.Forall₂ R as bs → ∀ b ∈ bs, p b
  | _, _, .nil => fun _ h => absurd h List.not_mem_nil
  | _, _, .cons h hs => List.forall_mem_cons.mpr ⟨hp _ _ h, forall_of_forall₂ hp hs⟩

theorem mapM_eq_error {f : α → Except ε β} {e : ε} : ∀ {items : List α},
    items.mapM f = .error e → ∃ a ∈ items, f a = .error e
  | [], h => by
    rw [List.mapM_nil] at h
    cases h
  | a :: items, h => by
    rw [List.mapM_cons] at h
    rcases bind_eq_error.mp h with h | ⟨b, -, h⟩
    · exact ⟨a, List.mem_cons_self, h⟩
    · rcases bind_eq_error.mp h with h | ⟨bs, -, h⟩
      · obtain ⟨c, hc, hfails⟩ := mapM_eq_error h
        exact ⟨c, List.mem_cons_of_mem _ hc, hfails⟩
      · cases h

end Except
