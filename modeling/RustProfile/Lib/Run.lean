import Mathlib.Logic.Basic

/-!
# Runs of a partial step function

A system is a step function `σ → α → Option σ`: an action that is not enabled
gives `none`. `Inv` holds along a run when it holds at its start and every step
that meets the run's side condition keeps it.
-/

namespace Run

section
variable {σ α : Type*} (step : σ → α → Option σ)

def run : σ → List α → Option σ
  | s, [] => some s
  | s, a :: as => (step s a).bind (run · as)

/-- Every action of the run meets `ok` in the state it is taken in. -/
def Guarded (ok : σ → α → Prop) : σ → List α → Prop
  | _, [] => True
  | s, a :: as => ok s a ∧ ∀ t, step s a = some t → Guarded ok t as

@[simp] theorem run_nil (s : σ) : run step s [] = some s := rfl

theorem run_cons (s : σ) (a : α) (as : List α) : run step s (a :: as) = (step s a).bind (run step · as) := rfl

theorem run_append : ∀ (as bs : List α) (s : σ),
    run step s (as ++ bs) = (run step s as).bind (run step · bs)
  | [], _, _ => rfl
  | a :: as, bs, s => by
    rw [List.cons_append, run_cons, run_cons]
    cases step s a with
    | none => rfl
    | some t => simp only [Option.bind_some]; exact run_append as bs t

theorem run_snoc {s u : σ} {as : List α} {a : α} (h : run step s (as ++ [a]) = some u) :
    ∃ t, run step s as = some t ∧ step t a = some u := by
  rw [run_append] at h
  obtain ⟨t, ht, hu⟩ := Option.bind_eq_some_iff.mp h
  rw [run_cons] at hu
  obtain ⟨v, hv, hvu⟩ := Option.bind_eq_some_iff.mp hu
  simp only [run_nil, Option.some.injEq] at hvu
  subst hvu
  exact ⟨t, ht, hv⟩

theorem guarded_append {ok : σ → α → Prop} : ∀ {as bs : List α} {s t : σ}, run step s as = some t →
    (Guarded step ok s (as ++ bs) ↔ Guarded step ok s as ∧ Guarded step ok t bs)
  | [], bs, s, t, h => by
    simp only [run_nil, Option.some.injEq] at h
    subst h
    simp [Guarded]
  | a :: as, bs, s, t, h => by
    rw [run_cons] at h
    obtain ⟨u, hu, hut⟩ := Option.bind_eq_some_iff.mp h
    have ih := @guarded_append ok as bs _ _ hut
    simp only [List.cons_append, Guarded, hu, Option.some.injEq, forall_eq']
    rw [ih, and_assoc]

theorem guarded_cons {ok : σ → α → Prop} {s t : σ} {a : α} {as : List α} (h : ok s a) (hs : step s a = some t)
    (hg : Guarded step ok t as) : Guarded step ok s (a :: as) :=
  ⟨h, fun _ hu => Option.some.inj (hs.symm.trans hu) ▸ hg⟩

theorem guarded_of_forall {ok : σ → α → Prop} : ∀ {as : List α} {s : σ}, (∀ a ∈ as, ∀ s, ok s a) →
    Guarded step ok s as
  | [], _, _ => trivial
  | a :: _, s, h => ⟨h a (by simp) s, fun _ _ => guarded_of_forall fun b hb => h b (List.mem_cons_of_mem _ hb)⟩

theorem guarded_true : ∀ (as : List α) (s : σ), Guarded step (fun _ _ => True) s as
  | [], _ => trivial
  | _ :: as, _ => ⟨trivial, fun t _ => guarded_true as t⟩

/-- **Invariant rule.** -/
theorem run_inv {ok : σ → α → Prop} {Inv : σ → Prop}
    (hstep : ∀ s a t, Inv s → ok s a → step s a = some t → Inv t) :
    ∀ {as : List α} {s t : σ}, Inv s → Guarded step ok s as → run step s as = some t → Inv t
  | [], s, t, hs, _, h => by
    simp only [run_nil, Option.some.injEq] at h
    exact h ▸ hs
  | a :: as, s, t, hs, hg, h => by
    rw [run_cons] at h
    obtain ⟨u, hu, hut⟩ := Option.bind_eq_some_iff.mp h
    exact run_inv hstep (hstep s a u hs hg.1 hu) (hg.2 u hu) hut

/-- The invariant rule when no side condition is needed. -/
theorem run_inv' {Inv : σ → Prop} (hstep : ∀ s a t, Inv s → step s a = some t → Inv t)
    {as : List α} {s t : σ} (hs : Inv s) (h : run step s as = some t) : Inv t :=
  @run_inv _ _ step (fun _ _ => True) _ (fun s a t hs _ => hstep s a t hs) as s t hs
    (guarded_true step as s) h

/-- A step that the invariant enables whatever the action enables every run. -/
theorem run_total {Inv : σ → Prop} (hstep : ∀ s a, Inv s → ∃ t, step s a = some t ∧ Inv t) :
    ∀ (as : List α) {s : σ}, Inv s → ∃ t, run step s as = some t ∧ Inv t
  | [], s, hs => ⟨s, rfl, hs⟩
  | a :: as, s, hs => by
    obtain ⟨t, ht, hinv⟩ := hstep s a hs
    obtain ⟨u, hu, hlast⟩ := run_total hstep as hinv
    exact ⟨u, by rw [run_cons, ht]; exact hu, hlast⟩

/-- Two side conditions that agree wherever the invariant holds hold of the same runs. -/
theorem guarded_congr {ok ok' : σ → α → Prop} {Inv : σ → Prop} (hstep : ∀ s a t, Inv s → step s a = some t → Inv t)
    (hok : ∀ s a, Inv s → (ok s a ↔ ok' s a)) :
    ∀ {as : List α} {s : σ}, Inv s → (Guarded step ok s as ↔ Guarded step ok' s as)
  | [], _, _ => Iff.rfl
  | a :: as, s, hs => by
    unfold Guarded
    rw [hok s a hs]
    exact and_congr_right fun _ => forall₂_congr fun t ht => guarded_congr hstep hok (hstep s a t hs ht)

end

end Run
