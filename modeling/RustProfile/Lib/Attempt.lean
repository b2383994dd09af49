import Mathlib.Algebra.BigOperators.Group.List.Basic
import Mathlib.Algebra.GroupWithZero.Nat

/-!
# Computations that may fail, with a budget

A computation keeps its state when it fails. Part of the state is a purse, from
which the computation takes what it costs. Computations of known cost are put
together: their costs add up, and the whole succeeds when each part can and the
purse holds out.
-/

/-- A computation that keeps its state when it fails. -/
abbrev Attempt (ε σ α : Type) := ExceptT ε (StateM σ) α

namespace Attempt

section
variable {ε σ α β : Type}

def outcome (x : Attempt ε σ α) (s : σ) : Except ε α × σ := x.run.run s

def ofExcept : Except ε α → Attempt ε σ α
  | .ok a => pure a
  | .error e => throw e

def ofOption (value : Option α) (error : ε) : Attempt ε σ α :=
  match value with
  | some a => pure a
  | none => throw error

@[simp] theorem outcome_pure (a : α) (s : σ) : outcome (pure a : Attempt ε σ α) s = (.ok a, s) := rfl

@[simp] theorem outcome_throw (e : ε) (s : σ) : outcome (throw e : Attempt ε σ α) s = (.error e, s) := rfl

@[simp] theorem outcome_get (s : σ) : outcome (get : Attempt ε σ σ) s = (.ok s, s) := rfl

@[simp] theorem outcome_set (s t : σ) : outcome (set t : Attempt ε σ PUnit) s = (.ok (), t) := rfl

@[simp] theorem outcome_modify (f : σ → σ) (s : σ) : outcome (modify f : Attempt ε σ PUnit) s = (.ok (), f s) := rfl

@[simp] theorem outcome_ofExcept (x : Except ε α) (s : σ) : outcome (ofExcept x : Attempt ε σ α) s = (x, s) := by
  cases x <;> rfl

theorem ofExcept_ok {x : Except ε α} {s t : σ} {a : α} :
    outcome (ofExcept x : Attempt ε σ α) s = (.ok a, t) ↔ x = .ok a ∧ t = s := by
  rw [outcome_ofExcept, Prod.mk.injEq, @eq_comm _ s]

theorem ofOption_ok {value : Option α} {error : ε} {s t : σ} {a : α} :
    outcome (ofOption value error : Attempt ε σ α) s = (.ok a, t) ↔ value = some a ∧ t = s := by
  cases value with
  | none => exact iff_of_false (fun h => by cases h) fun h => by cases h.1
  | some b =>
    rw [ofOption, outcome_pure, Prod.mk.injEq, Except.ok.injEq, Option.some.injEq, @eq_comm _ s]

theorem ofOption_error {value : Option α} {error e : ε} {s t : σ}
    (h : outcome (ofOption value error : Attempt ε σ α) s = (.error e, t)) : e = error := by
  cases value with
  | none =>
    cases h
    rfl
  | some b => cases h

theorem outcome_bind (x : Attempt ε σ α) (f : α → Attempt ε σ β) (s : σ) : outcome (x >>= f) s =
    match outcome x s with
    | (.ok a, t) => outcome (f a) t
    | (.error e, t) => (.error e, t) := by
  unfold outcome
  rw [ExceptT.run_bind, StateT.run_bind]
  obtain ⟨a, t⟩ := x.run.run s
  cases a <;> rfl

theorem bind_ok {x : Attempt ε σ α} {f : α → Attempt ε σ β} {s t : σ} {b : β} :
    outcome (x >>= f) s = (.ok b, t) ↔ ∃ a u, outcome x s = (.ok a, u) ∧ outcome (f a) u = (.ok b, t) := by
  rw [outcome_bind]
  cases h : outcome x s with
  | mk r u => cases r <;> simp

theorem bind_error {x : Attempt ε σ α} {f : α → Attempt ε σ β} {s t : σ} {e : ε} :
    outcome (x >>= f) s = (.error e, t) ↔
      outcome x s = (.error e, t) ∨ ∃ a u, outcome x s = (.ok a, u) ∧ outcome (f a) u = (.error e, t) := by
  rw [outcome_bind]
  cases h : outcome x s with
  | mk r u => cases r <;> simp

/-- What each item shows of itself, in the states that those before it lead to. -/
theorem mapM_ok {f : α → Attempt ε σ β} : ∀ {items : List α} {s t : σ} {out : List β} {Inv : σ → Prop} {P : α → Prop},
    (∀ a ∈ items, ∀ s t b, Inv s → outcome (f a) s = (.ok b, t) → Inv t ∧ P a) → Inv s →
      outcome (items.mapM f) s = (.ok out, t) → Inv t ∧ ∀ a ∈ items, P a
  | [], s, t, out, Inv, P, _, hs, h => by
    rw [List.mapM_nil, outcome_pure] at h
    cases h
    exact ⟨hs, fun _ ha => absurd ha List.not_mem_nil⟩
  | a :: items, s, t, out, Inv, P, hf, hs, h => by
    obtain ⟨hfirst, hrest⟩ := List.forall_mem_cons.mp hf
    rw [List.mapM_cons] at h
    obtain ⟨b, u, hb, h⟩ := bind_ok.mp h
    obtain ⟨bs, v, hbs, h⟩ := bind_ok.mp h
    rw [outcome_pure] at h
    cases h
    obtain ⟨hu, ha⟩ := hfirst s u b hs hb
    obtain ⟨hv, hitems⟩ := mapM_ok hrest hu hbs
    exact ⟨hv, List.forall_mem_cons.mpr ⟨ha, hitems⟩⟩

/-- The item that fails does so in a state that those before it lead to. -/
theorem mapM_error {f : α → Attempt ε σ β} : ∀ {items : List α} {s t : σ} {e : ε} {Inv : σ → Prop},
    (∀ a ∈ items, ∀ s t b, Inv s → outcome (f a) s = (.ok b, t) → Inv t) → Inv s →
      outcome (items.mapM f) s = (.error e, t) → ∃ a ∈ items, ∃ u, Inv u ∧ outcome (f a) u = (.error e, t)
  | [], s, t, e, Inv, _, _, h => by
    rw [List.mapM_nil, outcome_pure] at h
    cases h
  | a :: items, s, t, e, Inv, hf, hs, h => by
    obtain ⟨hfirst, hrest⟩ := List.forall_mem_cons.mp hf
    rw [List.mapM_cons] at h
    rcases bind_error.mp h with h | ⟨b, u, hb, h⟩
    · exact ⟨a, List.mem_cons_self, s, hs, h⟩
    · rcases bind_error.mp h with h | ⟨bs, v, -, h⟩
      · obtain ⟨c, hc, hfails⟩ := mapM_error hrest (hfirst s u b hs hb) h
        exact ⟨c, List.mem_cons_of_mem _ hc, hfails⟩
      · rw [outcome_pure] at h
        cases h

end

end Attempt

/-- Where a state keeps its budget. -/
structure Purse (σ : Type) where
  left : σ → ℕ
  spend : ℕ → σ → σ
  left_spend : ∀ n s, left (spend n s) = left s - n
  spend_spend : ∀ m n s, spend n (spend m s) = spend (m + n) s
  spend_zero : ∀ s, spend 0 s = s

namespace Purse

variable {ε σ α β : Type} (purse : Purse σ) (Ok : σ → Prop)

/-- From an admitted state the computation gives `a` for its cost, when it can and the purse has as much. -/
def Costs (can : Prop) (x : Attempt ε σ α) (a : α) (cost : ℕ) : Prop :=
  ∀ s t r, Ok s → (x.outcome s = (.ok r, t) ↔ can ∧ cost ≤ purse.left s ∧ r = a ∧ t = purse.spend cost s)

variable {purse Ok} {can can' : Prop}

theorem costs_pure (a : α) : purse.Costs Ok True (pure a : Attempt ε σ α) a 0 := by
  intro s t r _
  rw [Attempt.outcome_pure, purse.spend_zero]
  simp [eq_comm]

theorem Costs.congr (hcan : can ↔ can') {x : Attempt ε σ α} {a : α} {cost : ℕ} (h : purse.Costs Ok can x a cost) :
    purse.Costs Ok can' x a cost := by
  intro s t r hs
  rw [h s t r hs, hcan]

theorem Costs.weaken {Ok' : σ → Prop} (hok : ∀ s, Ok' s → Ok s) {x : Attempt ε σ α} {a : α} {cost : ℕ}
    (h : purse.Costs Ok can x a cost) : purse.Costs Ok' can x a cost := fun s t r hs => h s t r (hok s hs)

variable (hspend : ∀ n s, Ok s → Ok (purse.spend n s))

include hspend

theorem Costs.bind {x : Attempt ε σ α} {f : α → Attempt ε σ β} {a : α} {b : β} {cost cost' : ℕ}
    (hx : purse.Costs Ok can x a cost) (hf : purse.Costs Ok can' (f a) b cost') :
    purse.Costs Ok (can ∧ can') (x >>= f) b (cost + cost') := by
  intro s t r hs
  rw [Attempt.bind_ok]
  constructor
  · rintro ⟨a', u, hfirst, hrest⟩
    obtain ⟨hcan, hcost, rfl, rfl⟩ := (hx s u a' hs).mp hfirst
    obtain ⟨hcan', hcost', hr, ht⟩ := (hf _ t r (hspend cost s hs)).mp hrest
    rw [purse.left_spend] at hcost'
    rw [purse.spend_spend] at ht
    exact ⟨⟨hcan, hcan'⟩, by omega, hr, ht⟩
  · rintro ⟨⟨hcan, hcan'⟩, hcost, hr, ht⟩
    refine ⟨a, purse.spend cost s, (hx s _ a hs).mpr ⟨hcan, by omega, rfl, rfl⟩, ?_⟩
    refine (hf _ t r (hspend cost s hs)).mpr ⟨hcan', ?_, hr, ?_⟩
    · rw [purse.left_spend]
      omega
    · rw [purse.spend_spend]
      exact ht

theorem Costs.seq {x : Attempt ε σ Unit} {y : Attempt ε σ β} {b : β} {cost cost' : ℕ}
    (hx : purse.Costs Ok can x () cost) (hy : purse.Costs Ok can' y b cost') :
    purse.Costs Ok (can ∧ can') (x >>= fun _ => y) b (cost + cost') := hx.bind hspend hy

theorem Costs.map (g : α → β) {x : Attempt ε σ α} {a : α} {cost : ℕ} (hx : purse.Costs Ok can x a cost) :
    purse.Costs Ok can (x >>= fun r => pure (g r)) (g a) cost := by
  have hmap : purse.Costs Ok (can ∧ True) (x >>= fun r => (pure (g r) : Attempt ε σ β)) (g a) (cost + 0) :=
    hx.bind hspend (costs_pure (g a))
  exact hmap.congr (and_iff_left trivial)

theorem costs_mapM {f : α → Attempt ε σ β} {out : α → β} {cost : α → ℕ} {can : α → Prop} : ∀ {items : List α},
    (∀ a ∈ items, purse.Costs Ok (can a) (f a) (out a) (cost a)) →
      purse.Costs Ok (∀ a ∈ items, can a) (items.mapM f) (items.map out) (items.map cost).sum
  | [], _ => (costs_pure []).congr (by simp)
  | a :: items, h => by
    obtain ⟨hfirst, hrest⟩ := List.forall_mem_cons.mp h
    rw [List.mapM_cons, List.map_cons, List.map_cons, List.sum_cons]
    have hlast := (costs_mapM hrest).map hspend fun bs => out a :: bs
    exact (hfirst.bind hspend hlast).congr (by simp)

theorem costs_forM {f : α → Attempt ε σ Unit} {cost : α → ℕ} {can : α → Prop} : ∀ {items : List α},
    (∀ a ∈ items, purse.Costs Ok (can a) (f a) () (cost a)) →
      purse.Costs Ok (∀ a ∈ items, can a) (items.forM f) () (items.map cost).sum
  | [], _ => (costs_pure ()).congr (by simp)
  | a :: items, h => by
    obtain ⟨hfirst, hrest⟩ := List.forall_mem_cons.mp h
    rw [List.map_cons, List.sum_cons]
    exact (hfirst.bind hspend (costs_forM hrest)).congr (by simp)

end Purse
