import RustProfile.OutputWriterSound

/-!
# Windows in flight

A window is with the recorder until it is sent, then in the channel, then with
the worker. A submitted window joins at the end; after that a step can lose a
window or shed it, but neither copy it nor bring it back.
-/

namespace RustProfile

open Channels

variable {W S : Type}

def WriterCommand.held : WriterCommand W S → List W
  | .window w => [w]
  | .replaceSymbolizer _ => []

def OutputWorker.held : OutputWorker W → List W
  | .writing window => [window]
  | _ => []

def RecorderPhase.held : RecorderPhase W S → List W
  | .checking (.submit window) _ _ => [window]
  | .sending _ command => command.held
  | _ => []

namespace WriterState

/-- The windows that the worker has not received. -/
def ahead (s : WriterState W S) : List W := s.commands.queue.flatMap WriterCommand.held ++ s.recorder.held

def inFlight (s : WriterState W S) : List W := s.worker.held ++ s.ahead

end WriterState

section
variable (shed : W → ℕ → W)

def Passed (before after : W) : Prop := after = before ∨ ∃ pending, after = shed before pending

/-- Some of the windows of `before` in their order, each perhaps shed. -/
def Passes (before after : List W) : Prop := ∃ kept, kept.Sublist before ∧ List.Forall₂ (Passed shed) kept after

variable {shed} {before after before' after' : List W}

theorem passes_of_sublist (h : after.Sublist before) : Passes shed before after :=
  ⟨after, h, List.forall₂_same.mpr fun _ _ => Or.inl rfl⟩

theorem passes_refl (windows : List W) : Passes shed windows windows := passes_of_sublist (List.Sublist.refl windows)

theorem Passes.append (h : Passes shed before after) (h' : Passes shed before' after') :
    Passes shed (before ++ before') (after ++ after') := by
  obtain ⟨kept, hsub, hpassed⟩ := h
  obtain ⟨kept', hsub', hpassed'⟩ := h'
  exact ⟨kept ++ kept', hsub.append hsub', List.rel_append hpassed hpassed'⟩

theorem Passes.map {K : Type} {key : W → K} (hkey : ∀ window pending, key (shed window pending) = key window)
    (h : Passes shed before after) : (after.map key).Sublist (before.map key) := by
  obtain ⟨kept, hsub, hpassed⟩ := h
  have hmap : after.map key = kept.map key := by
    induction hpassed with
    | nil => rfl
    | cons hw hrest ih =>
      rw [List.map_cons, List.map_cons, ih ((List.sublist_cons_self _ _).trans hsub)]
      rcases hw with rfl | ⟨pending, rfl⟩
      · rfl
      · rw [hkey]
  exact hmap ▸ hsub.map key

theorem origin_of_mem : ∀ {before after : List W}, List.Forall₂ (Passed shed) before after → ∀ window ∈ after,
    ∃ origin ∈ before, Passed shed origin window
  | _, _, .nil, _, hmem => by cases hmem
  | _, _, .cons hw hrest, window, hmem => by
    rcases List.mem_cons.mp hmem with rfl | hmem
    · exact ⟨_, List.mem_cons_self, hw⟩
    · obtain ⟨origin, horigin, hpassed⟩ := origin_of_mem hrest window hmem
      exact ⟨origin, List.mem_cons_of_mem _ horigin, hpassed⟩

/-- What shedding keeps true of a window stays true of all. -/
theorem Passes.forall {P : W → Prop} (hshed : ∀ window pending, P window → P (shed window pending))
    (h : Passes shed before after) (hP : ∀ window ∈ before, P window) : ∀ window ∈ after, P window := by
  intro window hmem
  obtain ⟨kept, hsub, hpassed⟩ := h
  obtain ⟨origin, horigin, rfl | ⟨pending, rfl⟩⟩ := origin_of_mem hpassed window hmem
  · exact hP _ (hsub.subset horigin)
  · exact hshed _ _ (hP _ (hsub.subset horigin))

end

/-! ## The recorder's steps -/

section
variable {shed : W → ℕ → W} {s t : WriterState W S}

/-- A step of the recorder. -/
structure Forwards (shed : W → ℕ → W) (s t : WriterState W S) : Prop where
  worker : t.worker = s.worker
  ahead : Passes shed s.ahead t.ahead

theorem forwards_of_held (hworker : t.worker = s.worker) (hqueue : t.commands.queue = s.commands.queue)
    (hheld : Passes shed s.recorder.held t.recorder.held) : Forwards shed s t := by
  refine ⟨hworker, ?_⟩
  unfold WriterState.ahead
  rw [hqueue]
  exact (passes_refl _).append hheld

theorem forwards_of_nil (hworker : t.worker = s.worker) (hqueue : t.commands.queue = s.commands.queue)
    (hheld : t.recorder.held = []) : Forwards shed s t :=
  forwards_of_held hworker hqueue (hheld ▸ passes_of_sublist (List.nil_sublist _))

theorem fails_forwards (error : String) (call : WriterCall W S) : Forwards shed s (s.fails error call) := by
  cases call <;> exact forwards_of_nil rfl rfl rfl

theorem finishChecked_forwards (panicked : Bool) : Forwards shed s (s.finishChecked panicked) := by
  unfold WriterState.finishChecked
  split
  · exact forwards_of_nil rfl rfl rfl
  · split
    · exact forwards_of_nil rfl rfl rfl
    · split
      · exact forwards_of_nil rfl rfl rfl
      · exact forwards_of_nil rfl rfl rfl

theorem checked_forwards {call : WriterCall W S} {panicked : Bool} {firstError : Option String}
    (hr : s.recorder = .checking call panicked firstError) (error : Option String) :
    Forwards shed s (s.checked shed call panicked error) := by
  cases error with
  | some error => exact fails_forwards error call
  | none =>
    cases call with
    | submit window =>
      refine forwards_of_held rfl rfl ?_
      rw [hr]
      refine ⟨[window], List.Sublist.refl _, .cons ?_ .nil⟩
      by_cases hp : s.pending ≠ 0
      · exact Or.inr ⟨s.pending, if_pos hp⟩
      · exact Or.inl (if_neg hp)
    | replaceSymbolizer symbolizer => exact forwards_of_nil rfl rfl rfl
    | checkCompleted => exact forwards_of_nil rfl rfl rfl
    | finish => exact finishChecked_forwards panicked

theorem poll_forwards {call : WriterCall W S} {panicked : Bool} {firstError : Option String}
    (hr : s.recorder = .checking call panicked firstError) :
    Forwards shed s (s.poll shed call panicked firstError) := by
  unfold WriterState.poll
  cases s.completions.tryRecv with
  | received result completions =>
    refine forwards_of_held rfl rfl ?_
    rw [hr]
    cases call <;> exact passes_refl _
  | empty => exact checked_forwards hr _
  | disconnected => exact checked_forwards hr _

theorem send_forwards {call : WriterCall W S} {command : WriterCommand W S} (hr : s.recorder = .sending call command)
    (ht : s.send call command = some t) : Forwards shed s t := by
  unfold WriterState.send at ht
  split at ht
  · cases ht
    exact forwards_of_nil rfl rfl rfl
  · cases hc : s.commands.trySend command with
    | sent commands =>
      rw [hc] at ht
      cases ht
      obtain ⟨-, -, rfl⟩ := trySend_sent hc
      refine ⟨rfl, ?_⟩
      unfold WriterState.ahead
      rw [hr]
      simp [WriterState.returns, RecorderPhase.held, passes_refl]
    | full =>
      rw [hc] at ht
      cases ht
    | disconnected =>
      rw [hc] at ht
      cases ht
      exact forwards_of_nil rfl rfl rfl

theorem submit_ahead {window : W} (ht : s.recorderStep shed (.call (.submit window)) = some t) :
    t.worker = s.worker ∧ t.ahead = s.ahead ++ [window] := by
  cases WriterState.recorderStep_moves ht with
  | call _ hr =>
    refine ⟨rfl, ?_⟩
    unfold WriterState.ahead
    rw [hr]
    simp [WriterState.startCall, RecorderPhase.held]

theorem recorderStep_forwards {action : WriterStep W S} (hsubmit : ∀ window, action ≠ .call (.submit window))
    (ht : s.recorderStep shed action = some t) : Forwards shed s t := by
  cases WriterState.recorderStep_moves ht with
  | call call =>
    cases call with
    | submit window => exact (hsubmit window rfl).elim
    | replaceSymbolizer symbolizer => exact forwards_of_nil rfl rfl rfl
    | checkCompleted => exact forwards_of_nil rfl rfl rfl
    | finish => exact forwards_of_nil rfl rfl rfl
  | poll hr => exact poll_forwards hr
  | send hr hsend => exact send_forwards hr hsend
  | join => exact forwards_of_nil rfl rfl rfl
  | dropped => exact forwards_of_nil rfl rfl rfl
  | flush => exact forwards_of_nil rfl rfl rfl
  | drop => exact forwards_of_nil rfl rfl rfl

/-! ## The worker's steps -/

theorem sublist_of_nil (hahead : t.ahead = s.ahead) (hheld : t.worker.held = []) : t.inFlight.Sublist s.inFlight := by
  unfold WriterState.inFlight
  rw [hahead, hheld]
  exact List.sublist_append_right _ _

theorem receive_sublist (hw : s.worker = .receiving) (ht : s.receive = some t) : t.inFlight.Sublist s.inFlight := by
  unfold WriterState.receive at ht
  cases hc : s.commands.tryRecv with
  | empty =>
    rw [hc] at ht
    cases ht
  | disconnected =>
    rw [hc] at ht
    cases ht
    exact sublist_of_nil rfl rfl
  | received command commands =>
    obtain ⟨hqueue, -⟩ := tryRecv_received hc
    unfold WriterState.inFlight WriterState.ahead
    rw [hqueue, hw]
    cases command with
    | window window =>
      rw [hc] at ht
      cases ht
      exact List.Sublist.refl _
    | replaceSymbolizer symbolizer =>
      rw [hc] at ht
      cases ht
      exact hw ▸ List.Sublist.refl _

theorem dropCommands_sublist : ({ s with commands := s.commands.dropReceiver } : WriterState W S).inFlight.Sublist
    s.inFlight := by
  refine List.Sublist.append (List.Sublist.refl _) (List.Sublist.append ?_ (List.Sublist.refl _))
  exact List.nil_sublist _

theorem complete_sublist {result : Except String Unit} (ht : s.complete result = some t) :
    t.inFlight.Sublist s.inFlight := by
  unfold WriterState.complete at ht
  split at ht
  · cases ht
    exact sublist_of_nil rfl rfl
  · cases ht
  · cases ht
    exact sublist_of_nil rfl rfl

theorem workerStep_sublist {action : WriterStep W S} (ht : s.workerStep action = some t) :
    t.inFlight.Sublist s.inFlight := by
  cases WriterState.workerStep_moves ht with
  | receive hw hreceive => exact receive_sublist hw hreceive
  | write => exact sublist_of_nil rfl rfl
  | complete hw hcomplete => exact complete_sublist hcomplete
  | panic => exact sublist_of_nil rfl rfl
  | dropCommands => exact dropCommands_sublist
  | dropCompletions => exact List.Sublist.refl _
  | exit => exact sublist_of_nil rfl rfl

theorem workerStep_writing {action : WriterStep W S} {window : W} (hw : s.worker = .writing window)
    (ht : s.workerStep action = some t) : action = .panic ∨ ∃ result, action = .write result := by
  cases WriterState.workerStep_moves ht with
  | write result => exact Or.inr ⟨result, rfl⟩
  | panic => exact Or.inl rfl
  | receive hphase => cases hw.symm.trans hphase
  | complete hphase => cases hw.symm.trans hphase
  | dropCommands hphase => cases hw.symm.trans hphase
  | dropCompletions hphase => cases hw.symm.trans hphase
  | exit hphase => cases hw.symm.trans hphase

theorem workerStep_exited {action : WriterStep W S} {reason : WorkerEnd} (hw : s.worker = .exited reason) :
    s.workerStep action = none := by
  cases ht : s.workerStep action with
  | none => rfl
  | some t =>
    cases WriterState.workerStep_moves ht with
    | write _ hphase => cases hw.symm.trans hphase
    | panic hrunning => exact absurd hw (hrunning reason).2
    | receive hphase => cases hw.symm.trans hphase
    | complete hphase => cases hw.symm.trans hphase
    | dropCommands hphase => cases hw.symm.trans hphase
    | dropCompletions hphase => cases hw.symm.trans hphase
    | exit hphase => cases hw.symm.trans hphase

end

end RustProfile
