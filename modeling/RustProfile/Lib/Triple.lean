import RustProfile.Lib.Attempt

/-!
# Pre- and postconditions

`Triple P x Q E`: from a state with `P` the computation succeeds in a state with
`Q` of its result, or fails in one with `E`. A computation keeps an invariant
when it holds before and after, however the computation ends. A loop is turned a
number of times; its rule takes an invariant of one turn.
-/

namespace Attempt

section
variable {ε σ α β : Type}

def Triple (P : σ → Prop) (x : Attempt ε σ α) (Q : α → σ → Prop) (E : σ → Prop) : Prop :=
  ∀ s, P s → match outcome x s with
    | (.ok a, t) => Q a t
    | (.error _, t) => E t

/-- The invariant is kept, however the computation ends. -/
def Keeps (Inv : σ → Prop) (x : Attempt ε σ α) : Prop := Triple Inv x (fun _ => Inv) Inv

variable {P P' : σ → Prop} {Q Q' : α → σ → Prop} {R : β → σ → Prop} {E E' Inv : σ → Prop}

theorem Triple.ok {x : Attempt ε σ α} (h : Triple P x Q E) {s t : σ} {a : α} (hs : P s)
    (hx : outcome x s = (.ok a, t)) : Q a t := by
  have := h s hs
  rw [hx] at this
  exact this

theorem Triple.error {x : Attempt ε σ α} (h : Triple P x Q E) {s t : σ} {e : ε} (hs : P s)
    (hx : outcome x s = (.error e, t)) : E t := by
  have := h s hs
  rw [hx] at this
  exact this

theorem triple_iff {x : Attempt ε σ α} : Triple P x Q E ↔
    ∀ s, P s → (∀ a t, outcome x s = (.ok a, t) → Q a t) ∧ ∀ e t, outcome x s = (.error e, t) → E t := by
  constructor
  · intro h s hs
    exact ⟨fun a t => h.ok hs, fun e t => h.error hs⟩
  · intro h s hs
    obtain ⟨hok, herror⟩ := h s hs
    cases hx : outcome x s with
    | mk r t =>
      cases r with
      | ok a => exact hok a t hx
      | error e => exact herror e t hx

theorem Triple.conseq {x : Attempt ε σ α} (h : Triple P x Q E) (hP : ∀ s, P' s → P s)
    (hQ : ∀ a s, Q a s → Q' a s) (hE : ∀ s, E s → E' s) : Triple P' x Q' E' := by
  rw [triple_iff] at h ⊢
  intro s hs
  obtain ⟨hok, herror⟩ := h s (hP s hs)
  exact ⟨fun a t ht => hQ a t (hok a t ht), fun e t ht => hE t (herror e t ht)⟩

theorem Triple.post {x : Attempt ε σ α} (h : Triple P x Q E) (hQ : ∀ a s, Q a s → Q' a s) : Triple P x Q' E :=
  h.conseq (fun _ => id) hQ fun _ => id

theorem Triple.pre {x : Attempt ε σ α} (h : Triple P x Q E) (hP : ∀ s, P' s → P s) : Triple P' x Q E :=
  h.conseq hP (fun _ _ => id) fun _ => id

/-- A weaker state where it fails. -/
theorem Triple.fails {x : Attempt ε σ α} (h : Triple P x Q E) (hE : ∀ s, E s → E' s) : Triple P x Q E' :=
  h.conseq (fun _ => id) (fun _ _ => id) hE

/-- What the state is at the start may be named. -/
theorem Triple.ghost {γ : Type} {x : Attempt ε σ α} (g : σ → γ) (h : ∀ c, Triple (fun s => P s ∧ g s = c) x Q E) :
    Triple P x Q E := fun s hs => h (g s) s ⟨hs, rfl⟩

/-- A fact that the state has no part in. -/
theorem Triple.assume {c : Prop} {x : Attempt ε σ α} (h : c → Triple P x Q E) : Triple (fun s => P s ∧ c) x Q E :=
  fun s hs => h hs.2 s hs.1

theorem triple_pure {a : α} (h : ∀ s, P s → Q a s) : Triple P (pure a : Attempt ε σ α) Q E := h

theorem triple_throw {e : ε} (h : ∀ s, P s → E s) : Triple P (throw e : Attempt ε σ α) Q E := h

theorem Triple.bind {x : Attempt ε σ α} {f : α → Attempt ε σ β} (hx : Triple P x Q E)
    (hf : ∀ a, Triple (Q a) (f a) R E) : Triple P (x >>= f) R E := by
  rw [triple_iff]
  intro s hs
  constructor
  · intro b t h
    obtain ⟨a, u, ha, hb⟩ := bind_ok.mp h
    exact (hf a).ok (hx.ok hs ha) hb
  · intro e t h
    rcases bind_error.mp h with h | ⟨a, u, ha, hb⟩
    · exact hx.error hs h
    · exact (hf a).error (hx.ok hs ha) hb

theorem triple_modify {f : σ → σ} {Q : PUnit → σ → Prop} (h : ∀ s, P s → Q ⟨⟩ (f s)) :
    Triple P (modify f : Attempt ε σ PUnit) Q E := h

/-- What is known of the state at the start may be used in what follows. -/
theorem Triple.get_bind {f : σ → Attempt ε σ β} (h : ∀ s, P s → Triple P (f s) R E) : Triple P (get >>= f) R E := by
  intro s hs
  have hf := h s hs s hs
  rw [outcome_bind, outcome_get]
  exact hf

theorem Triple.ite {c : Prop} [Decidable c] {x y : Attempt ε σ α} (hx : c → Triple P x Q E)
    (hy : ¬ c → Triple P y Q E) : Triple P (if c then x else y) Q E := by
  by_cases h : c
  · rw [if_pos h]
    exact hx h
  · rw [if_neg h]
    exact hy h

/-- What follows a check may use that it did not fail. -/
theorem Triple.require {c : Prop} [Decidable c] {e : ε} {f : Unit → Attempt ε σ α} (h : ¬ c → Triple P (f ()) Q E)
    (hE : ∀ s, P s → E s) : Triple P (if c then throw e >>= f else f ()) Q E :=
  Triple.ite (fun _ => (triple_throw hE : Triple P (throw e) (fun _ _ => False) E).bind fun _ _ hs => hs.elim) h

/-- A computation that is left out at times. -/
theorem Triple.when {c : Prop} [Decidable c] {x : Attempt ε σ Unit} {f : Unit → Attempt ε σ α}
    (hx : Triple P x (fun _ => P) E) (hf : ∀ a, Triple P (f a) Q E) : Triple P (if c then x >>= f else f ()) Q E :=
  Triple.ite (fun _ => hx.bind hf) fun _ => hf ()

theorem tryCatch_ok {x : Attempt ε σ α} {s t : σ} {a : α} (h : outcome x s = (.ok a, t)) (f : ε → Attempt ε σ α) :
    outcome (tryCatch x f) s = (.ok a, t) := by
  have hrun : x.run.run s = (.ok a, t) := h
  unfold outcome
  rw [ExceptT.run_tryCatch, StateT.run_bind, hrun]
  rfl

theorem tryCatch_error {x : Attempt ε σ α} {s t : σ} {e : ε} (h : outcome x s = (.error e, t))
    (f : ε → Attempt ε σ α) : outcome (tryCatch x f) s = outcome (f e) t := by
  have hrun : x.run.run s = (.error e, t) := h
  unfold outcome
  rw [ExceptT.run_tryCatch, StateT.run_bind, hrun]
  rfl

/-- What is caught starts where the computation failed. -/
theorem Triple.tryCatch {x : Attempt ε σ α} {f : ε → Attempt ε σ α} (hx : Triple P x Q E')
    (hf : ∀ e, Triple E' (f e) Q E) : Triple P (tryCatch x f) Q E := by
  intro s hs
  have h := hx s hs
  cases hout : outcome x s with
  | mk r t =>
    rw [hout] at h
    cases r with
    | ok a =>
      rw [tryCatch_ok hout]
      exact h
    | error e =>
      rw [tryCatch_error hout]
      exact hf e t h

/-! ## Loops -/

/-- The second test is made where the first one holds. -/
def andThen (x y : Attempt ε σ Bool) : Attempt ε σ Bool := do
  if ← x then y else pure false

/-- The body is turned until it says that the loop is over, `limit` times at most. -/
def turns (unfinished : ε) (body : Attempt ε σ Bool) : (limit : ℕ) → Attempt ε σ Unit
  | 0 => throw unfinished
  | limit + 1 => do
    if ← body then turns unfinished body limit else pure ()

theorem Triple.andThen {x y : Attempt ε σ Bool} (hx : Triple Inv x (fun _ => Inv) E)
    (hy : Triple Inv y (fun _ => Inv) E) : Triple Inv (andThen x y) (fun _ => Inv) E :=
  hx.bind fun _ => Triple.ite (fun _ => hy) fun _ => triple_pure fun _ h => h

/-- **Loop rule.** -/
theorem Triple.turns {unfinished : ε} {body : Attempt ε σ Bool} {Q : σ → Prop}
    (hbody : Triple Inv body (fun again s => if again = true then Inv s else Q s) E) (hE : ∀ s, Inv s → E s) :
    ∀ limit, Triple Inv (turns unfinished body limit) (fun _ => Q) E
  | 0 => triple_throw hE
  | limit + 1 => by
    refine hbody.bind fun again => ?_
    cases again with
    | true => exact (Triple.turns hbody hE limit).pre fun s h => by simpa using h
    | false => exact triple_pure fun s h => by simpa using h

/-- **Loop rule with a variant.** A loop that is turned often enough comes to its end. -/
theorem Triple.turns_variant {unfinished : ε} {body : Attempt ε σ Bool} {Q : σ → Prop} {Inv : ℕ → σ → Prop}
    (hbody : ∀ n, Triple (Inv n) body (fun again s => if again = true then ∃ m < n, Inv m s else Q s) E) :
    ∀ limit n, n < limit → Triple (Inv n) (Attempt.turns unfinished body limit) (fun _ => Q) E
  | 0, n, hn => absurd hn (Nat.not_lt_zero n)
  | limit + 1, n, hn => by
    refine (hbody n).bind fun again => ?_
    cases again with
    | true =>
      intro s hs
      obtain ⟨m, hm, hs⟩ := hs
      exact Triple.turns_variant hbody limit m (Nat.lt_of_lt_of_le hm (Nat.le_of_lt_succ hn)) s hs
    | false => exact triple_pure fun s h => by simpa using h

/-! ## Invariants -/

theorem Keeps.bind {x : Attempt ε σ α} {f : α → Attempt ε σ β} (hx : Keeps Inv x) (hf : ∀ a, Keeps Inv (f a)) :
    Keeps Inv (x >>= f) := Triple.bind hx hf

theorem keeps_pure (a : α) : Keeps Inv (pure a : Attempt ε σ α) := fun _ => id

theorem keeps_throw (e : ε) : Keeps Inv (throw e : Attempt ε σ α) := fun _ => id

theorem keeps_get : Keeps Inv (get : Attempt ε σ σ) := fun _ => id

theorem keeps_modify {f : σ → σ} (h : ∀ s, Inv s → Inv (f s)) : Keeps Inv (modify f : Attempt ε σ PUnit) := h

theorem Keeps.get_bind {f : σ → Attempt ε σ β} (h : ∀ s, Inv s → Keeps Inv (f s)) : Keeps Inv (get >>= f) :=
  Triple.get_bind h

theorem keeps_ofExcept (x : Except ε α) : Keeps Inv (ofExcept x : Attempt ε σ α) := by
  cases x with
  | ok a => exact keeps_pure a
  | error e => exact keeps_throw e

theorem Keeps.ite {c : Prop} [Decidable c] {x y : Attempt ε σ α} (hx : Keeps Inv x) (hy : Keeps Inv y) :
    Keeps Inv (if c then x else y) := Triple.ite (fun _ => hx) fun _ => hy

theorem Keeps.when {c : Prop} [Decidable c] {x : Attempt ε σ Unit} {f : Unit → Attempt ε σ α} (hx : Keeps Inv x)
    (hf : ∀ a, Keeps Inv (f a)) : Keeps Inv (if c then x >>= f else f ()) := Triple.when hx hf

theorem Keeps.tryCatch {x : Attempt ε σ α} {f : ε → Attempt ε σ α} (hx : Keeps Inv x) (hf : ∀ e, Keeps Inv (f e)) :
    Keeps Inv (MonadExcept.tryCatch x f) := Triple.tryCatch hx hf

theorem Keeps.andThen {x y : Attempt ε σ Bool} (hx : Keeps Inv x) (hy : Keeps Inv y) : Keeps Inv (andThen x y) :=
  Triple.andThen hx hy

theorem Keeps.turns {unfinished : ε} {body : Attempt ε σ Bool} (h : Keeps Inv body) :
    ∀ limit, Keeps Inv (turns unfinished body limit)
  | 0 => keeps_throw unfinished
  | limit + 1 => Keeps.bind h fun _ => Keeps.ite (Keeps.turns h limit) (keeps_pure ())

theorem Keeps.fails {x : Attempt ε σ α} (h : Keeps Inv x) (hE : ∀ s, Inv s → E s) : Triple Inv x (fun _ => Inv) E :=
  Triple.fails h hE

end

end Attempt
