import RustProfile.OutputWriter
import RustProfile.Lib.Run
import Mathlib.Data.List.Forall2

/-!
# The output writer is a faithful queue

Whatever the order of the two threads' steps, what the worker has written is
what it took from the commands, each with the symbolizer that was installed
before it, and what the recorder has heard is what the worker has sent it. So
`finish` can tell whether everything was written.
-/

namespace RustProfile

open Channels Run

variable {W S : Type}

/-! ## What was asked for -/

/-- The windows among the commands, each with the symbolizer installed most recently before it. -/
def submissions : S → List (WriterCommand W S) → List (W × S)
  | _, [] => []
  | symbolizer, .window window :: rest => (window, symbolizer) :: submissions symbolizer rest
  | _, .replaceSymbolizer symbolizer :: rest => submissions symbolizer rest

def installed : S → List (WriterCommand W S) → S
  | symbolizer, [] => symbolizer
  | symbolizer, .window _ :: rest => installed symbolizer rest
  | _, .replaceSymbolizer symbolizer :: rest => installed symbolizer rest

theorem submissions_append : ∀ (symbolizer : S) (as bs : List (WriterCommand W S)),
    submissions symbolizer (as ++ bs) = submissions symbolizer as ++ submissions (installed symbolizer as) bs
  | _, [], _ => rfl
  | symbolizer, .window window :: as, bs => by
    rw [List.cons_append, submissions, submissions, submissions_append symbolizer as bs]
    rfl
  | _, .replaceSymbolizer symbolizer :: as, bs => submissions_append symbolizer as bs

theorem installed_append : ∀ (symbolizer : S) (as bs : List (WriterCommand W S)),
    installed symbolizer (as ++ bs) = installed (installed symbolizer as) bs
  | _, [], _ => rfl
  | symbolizer, .window _ :: as, bs => installed_append symbolizer as bs
  | _, .replaceSymbolizer symbolizer :: as, bs => installed_append symbolizer as bs

theorem submissions_length_snoc (symbolizer : S) (as : List (WriterCommand W S)) (command : WriterCommand W S) :
    (submissions symbolizer (as ++ [command])).length = (submissions symbolizer as).length + command.windows := by
  rw [submissions_append, List.length_append]
  cases command with
  | window _ => rfl
  | replaceSymbolizer _ => rfl

section
variable (shed : W → ℕ → W)

/-- The command that a call sends: its window, shed when others were pending, or its symbolizer. -/
inductive Sends : WriterCall W S → WriterCommand W S → Prop where
  | window (window : W) : Sends (.submit window) (.window window)
  | shedWindow (window : W) (pending : ℕ) : Sends (.submit window) (.window (shed window pending))
  | symbolizer (symbolizer : S) : Sends (.replaceSymbolizer symbolizer) (.replaceSymbolizer symbolizer)

def accepted (returned : List (WriterCall W S × Except String Unit)) : List (WriterCall W S) :=
  returned.filterMap fun r =>
    match r with
    | (.submit window, .ok _) => some (.submit window)
    | (.replaceSymbolizer symbolizer, .ok _) => some (.replaceSymbolizer symbolizer)
    | _ => none

/-! ## The invariant -/

section
variable (start : S) (s : WriterState W S)

structure Running : Prop where
  receiver : s.commands.receiver = true
  sender : s.completions.sender = true
  symbolizer : s.symbolizer = installed start s.history.taken

/-- All windows that were taken have been written, and their results sent. -/
structure UpToDate : Prop where
  written : submissions start s.history.taken = s.history.written.map fun w => (w.1, w.2.1)
  completed : s.history.completed = s.history.written.map fun w => w.2.2

structure Stopped (reason : WorkerEnd) : Prop where
  heard : reason ≠ .unheard
  closed : reason = .closed → s.commands.sender = false ∧ s.history.taken = s.history.sent ∧ UpToDate start s

def WorkerFits : OutputWorker W → Prop
  | .receiving => Running start s ∧ UpToDate start s
  | .writing window => Running start s ∧
      submissions start s.history.taken = s.history.written.map (fun w => (w.1, w.2.1)) ++ [(window, s.symbolizer)] ∧
      s.history.completed = s.history.written.map fun w => w.2.2
  | .completing result => Running start s ∧
      submissions start s.history.taken = s.history.written.map (fun w => (w.1, w.2.1)) ∧
      s.history.completed ++ [result] = s.history.written.map fun w => w.2.2
  | .stopping reason => Stopped start s reason
  | .exited reason => Stopped start s reason

def CallFits (panicked : Bool) : WriterCall W S → Prop
  | .finish => s.commands.sender = false ∧ ∃ reason, s.worker = .exited reason ∧ panicked = decide (reason = .panicked)
  | _ => s.commands.sender = true

def RecorderFits : RecorderPhase W S → Prop
  | .idle => s.commands.sender = true ∧ s.completions.receiver = true
  | .checking call panicked _ => CallFits s panicked call ∧ s.completions.receiver = true
  | .sending call command => (s.commands.sender = true ∧ s.completions.receiver = true) ∧ Sends shed call command
  | .joining => s.commands.sender = false ∧ s.completions.receiver = true
  | .flushing => s.worker = .exited .closed ∧ s.pending = 0
  | .dropping => s.commands.sender = false ∧ s.completions.receiver = true
  | .gone => ∃ reason, s.worker = .exited reason

def Reported : Prop := ∃ call error, (call, Except.error error) ∈ s.history.returned

def RecorderPhase.Noticed : RecorderPhase W S → Prop
  | .checking _ _ (some _) => True
  | _ => False

structure WriterInv : Prop where
  commands : Carries s.commands s.history.sent s.history.taken
  completions : Carries s.completions s.history.completed s.history.received
  bound : s.history.completed.length ≤ (submissions start s.history.taken).length
  pending : s.pending + s.history.received.length = (submissions start s.history.sent).length
  sends : List.Forall₂ (Sends shed) (accepted s.history.returned) s.history.sent
  worker : WorkerFits start s s.worker
  recorder : RecorderFits shed s s.recorder
  noticed : (∃ error, .error error ∈ s.history.received) → s.recorder.Noticed ∨ Reported s
  finished : ∀ result, (.finish, result) ∈ s.history.returned → s.recorder = .gone ∧
    (result = .ok () → s.worker = .exited .closed ∧ s.pending = 0)

end

theorem writerInv_start (symbolizer : S) (exporter : Bool) :
    WriterInv shed symbolizer (.start symbolizer exporter : WriterState W S) :=
  ⟨carries_new _, carries_new _, Nat.le_refl _, rfl, List.Forall₂.nil, ⟨⟨rfl, rfl, rfl⟩, rfl, rfl⟩, ⟨rfl, rfl⟩,
    fun ⟨_, h⟩ => (List.not_mem_nil h).elim, fun _ h => (List.not_mem_nil h).elim⟩

/-! ## What a step leaves alone -/

section
variable {start : S} {s t : WriterState W S}

structure SameWorker (s t : WriterState W S) : Prop where
  worker : t.worker = s.worker
  symbolizer : t.symbolizer = s.symbolizer
  receiver : t.commands.receiver = s.commands.receiver
  sender : t.completions.sender = s.completions.sender
  taken : t.history.taken = s.history.taken
  written : t.history.written = s.history.written
  completed : t.history.completed = s.history.completed
  closed : s.commands.sender = false → t.commands.sender = false ∧ t.history.sent = s.history.sent

structure SameRecorder (s t : WriterState W S) : Prop where
  recorder : t.recorder = s.recorder
  pending : t.pending = s.pending
  sender : t.commands.sender = s.commands.sender
  receiver : t.completions.receiver = s.completions.receiver
  sent : t.history.sent = s.history.sent
  received : t.history.received = s.history.received
  returned : t.history.returned = s.history.returned

theorem UpToDate.frame (h : UpToDate start s) (hs : SameWorker s t) : UpToDate start t := by
  refine ⟨?_, ?_⟩
  · rw [hs.taken, hs.written]
    exact h.written
  · rw [hs.completed, hs.written]
    exact h.completed

theorem Running.frame (h : Running start s) (hs : SameWorker s t) : Running start t := by
  refine ⟨hs.receiver.trans h.receiver, hs.sender.trans h.sender, ?_⟩
  rw [hs.symbolizer, hs.taken]
  exact h.symbolizer

theorem Stopped.frame {reason : WorkerEnd} (h : Stopped start s reason) (hs : SameWorker s t) :
    Stopped start t reason := by
  refine ⟨h.heard, fun hr => ?_⟩
  obtain ⟨hsender, htaken, hdone⟩ := h.closed hr
  obtain ⟨hsender', hsent⟩ := hs.closed hsender
  exact ⟨hsender', by rw [hs.taken, hsent, htaken], hdone.frame hs⟩

theorem Stopped.congr {reason : WorkerEnd} (h : Stopped start s reason)
    (hsender : t.commands.sender = s.commands.sender) (hhistory : t.history = s.history) : Stopped start t reason := by
  refine ⟨h.heard, fun hr => ?_⟩
  obtain ⟨hclosed, htaken, hdone⟩ := h.closed hr
  refine ⟨hsender.trans hclosed, ?_, ?_, ?_⟩
  · rw [hhistory]
    exact htaken
  · rw [hhistory]
    exact hdone.written
  · rw [hhistory]
    exact hdone.completed

theorem WorkerFits.frame (h : WorkerFits start s s.worker) (hs : SameWorker s t) : WorkerFits start t t.worker := by
  rw [hs.worker]
  cases hw : s.worker with
  | receiving =>
    rw [hw] at h
    exact ⟨h.1.frame hs, h.2.frame hs⟩
  | writing window =>
    rw [hw] at h
    refine ⟨h.1.frame hs, ?_, ?_⟩
    · rw [hs.taken, hs.written, hs.symbolizer]
      exact h.2.1
    · rw [hs.completed, hs.written]
      exact h.2.2
  | completing result =>
    rw [hw] at h
    refine ⟨h.1.frame hs, ?_, ?_⟩
    · rw [hs.taken, hs.written]
      exact h.2.1
    · rw [hs.completed, hs.written]
      exact h.2.2
  | stopping reason =>
    rw [hw] at h
    exact Stopped.frame h hs
  | exited reason =>
    rw [hw] at h
    exact Stopped.frame h hs

variable {shed : W → ℕ → W}

/-- Before the worker has exited the recorder does not depend on where it is. -/
theorem RecorderFits.frame (h : RecorderFits shed s s.recorder) (hw : ∀ reason, s.worker ≠ .exited reason)
    (hs : SameRecorder s t) : RecorderFits shed t t.recorder := by
  rw [hs.recorder]
  cases hr : s.recorder with
  | idle =>
    rw [hr] at h
    exact ⟨hs.sender.trans h.1, hs.receiver.trans h.2⟩
  | checking call panicked firstError =>
    rw [hr] at h
    refine ⟨?_, hs.receiver.trans h.2⟩
    cases call with
    | finish =>
      obtain ⟨-, reason, hexited, -⟩ := h.1
      exact (hw reason hexited).elim
    | submit window => exact hs.sender.trans h.1
    | replaceSymbolizer symbolizer => exact hs.sender.trans h.1
    | checkCompleted => exact hs.sender.trans h.1
  | sending call command =>
    rw [hr] at h
    exact ⟨⟨hs.sender.trans h.1.1, hs.receiver.trans h.1.2⟩, h.2⟩
  | joining =>
    rw [hr] at h
    exact ⟨hs.sender.trans h.1, hs.receiver.trans h.2⟩
  | flushing =>
    rw [hr] at h
    exact (hw _ h.1).elim
  | dropping =>
    rw [hr] at h
    exact ⟨hs.sender.trans h.1, hs.receiver.trans h.2⟩
  | gone =>
    rw [hr] at h
    obtain ⟨reason, hexited⟩ := h
    exact (hw reason hexited).elim

/-- Nobody hears of the results only after the worker has exited. -/
theorem RecorderFits.receiver (h : RecorderFits shed s s.recorder) (hw : ∀ reason, s.worker ≠ .exited reason) :
    s.completions.receiver = true := by
  cases hr : s.recorder with
  | idle =>
    rw [hr] at h
    exact h.2
  | checking call panicked firstError =>
    rw [hr] at h
    exact h.2
  | sending call command =>
    rw [hr] at h
    exact h.1.2
  | joining =>
    rw [hr] at h
    exact h.2
  | flushing =>
    rw [hr] at h
    exact (hw _ h.1).elim
  | dropping =>
    rw [hr] at h
    exact h.2
  | gone =>
    rw [hr] at h
    obtain ⟨reason, hexited⟩ := h
    exact (hw reason hexited).elim

theorem WriterInv.byWorker (h : WriterInv shed start s) (hw : ∀ reason, s.worker ≠ .exited reason)
    (hs : SameRecorder s t) (hcommands : Carries t.commands s.history.sent t.history.taken)
    (hcompletions : Carries t.completions t.history.completed s.history.received)
    (hbound : t.history.completed.length ≤ (submissions start t.history.taken).length)
    (hworker : WorkerFits start t t.worker) : WriterInv shed start t := by
  refine ⟨hs.sent.symm ▸ hcommands, hs.received.symm ▸ hcompletions, hbound, ?_, ?_, hworker,
    h.recorder.frame hw hs, ?_, ?_⟩
  · rw [hs.pending, hs.received, hs.sent]
    exact h.pending
  · rw [hs.returned, hs.sent]
    exact h.sends
  · unfold Reported
    rw [hs.received, hs.recorder, hs.returned]
    exact h.noticed
  · intro result hresult
    rw [hs.returned] at hresult
    have hgone := (h.finished result hresult).1
    have hfits := h.recorder
    rw [hgone] at hfits
    obtain ⟨reason, hexited⟩ := hfits
    exact (hw reason hexited).elim

theorem WriterInv.byRecorder (h : WriterInv shed start s) (hs : SameWorker s t)
    (hcommands : Carries t.commands t.history.sent s.history.taken)
    (hcompletions : Carries t.completions s.history.completed t.history.received)
    (hpending : t.pending + t.history.received.length = (submissions start t.history.sent).length)
    (hsends : List.Forall₂ (Sends shed) (accepted t.history.returned) t.history.sent)
    (hrecorder : RecorderFits shed t t.recorder)
    (hnoticed : (∃ error, .error error ∈ t.history.received) → t.recorder.Noticed ∨ Reported t)
    (hfinished : ∀ result, (.finish, result) ∈ t.history.returned → t.recorder = .gone ∧
      (result = .ok () → t.worker = .exited .closed ∧ t.pending = 0)) : WriterInv shed start t := by
  refine ⟨hs.taken.symm ▸ hcommands, hs.completed.symm ▸ hcompletions, ?_, hpending, hsends, h.worker.frame hs,
    hrecorder, hnoticed, hfinished⟩
  rw [hs.completed, hs.taken]
  exact h.bound

/-! ## The recorder's steps -/

/-- `finish` has not returned as long as the recorder can go on. -/
theorem WriterInv.not_finished (h : WriterInv shed start s) (hlive : s.recorder ≠ .gone)
    (result : Except String Unit) : (.finish, result) ∉ s.history.returned :=
  fun hmem => hlive (h.finished result hmem).1

theorem accepted_append (as bs : List (WriterCall W S × Except String Unit)) :
    accepted (as ++ bs) = accepted as ++ accepted bs := List.filterMap_append

theorem reported_snoc {call : WriterCall W S} {result : Except String Unit}
    (hreturned : t.history.returned = s.history.returned ++ [(call, result)])
    (h : Reported s ∨ ∃ error, result = .error error) : Reported t := by
  unfold Reported
  rw [hreturned]
  rcases h with ⟨call', error, hmem⟩ | ⟨error, rfl⟩
  · exact ⟨call', error, List.mem_append_left _ hmem⟩
  · exact ⟨call, error, List.mem_append_right _ (List.mem_singleton_self _)⟩

/-- What was noticed is reported by the error that is returned. -/
theorem WriterInv.reported (h : WriterInv shed start s) {call : WriterCall W S} {result : Except String Unit}
    (hreturned : t.history.returned = s.history.returned ++ [(call, result)])
    (hnoticed : s.recorder.Noticed → ∃ error, result = .error error)
    (hr : ∃ error, .error error ∈ s.history.received) : Reported t := by
  rcases h.noticed hr with hn | hn
  · exact reported_snoc hreturned (Or.inr (hnoticed hn))
  · exact reported_snoc hreturned (Or.inl hn)

theorem WriterInv.returns (h : WriterInv shed start s) (hlive : s.recorder ≠ .gone)
    (hopen : s.commands.sender = true ∧ s.completions.receiver = true) {call : WriterCall W S} (hcall : call ≠ .finish)
    {result : Except String Unit} (haccepted : accepted [(call, result)] = [])
    (hnoticed : s.recorder.Noticed → ∃ error, result = .error error) :
      WriterInv shed start (s.returns call result) := by
  refine h.byRecorder ⟨rfl, rfl, rfl, rfl, rfl, rfl, rfl, fun hc => ⟨hc, rfl⟩⟩ h.commands h.completions h.pending ?_
    hopen (fun hr => Or.inr (h.reported rfl hnoticed hr)) ?_
  · change List.Forall₂ _ (accepted (s.history.returned ++ [(call, result)])) _
    rw [accepted_append, haccepted, List.append_nil]
    exact h.sends
  · intro result' hmem
    rcases List.mem_append.mp hmem with hmem | hmem
    · exact (h.not_finished hlive result' hmem).elim
    · rw [List.mem_singleton, Prod.mk.injEq] at hmem
      exact (hcall hmem.1.symm).elim

theorem WriterInv.closes (h : WriterInv shed start s) (hlive : s.recorder ≠ .gone) {reason : WorkerEnd}
    (hexited : s.worker = .exited reason) {result : Except String Unit}
    (hok : result = .ok () → reason = .closed ∧ s.pending = 0)
    (hnoticed : s.recorder.Noticed → ∃ error, result = .error error) : WriterInv shed start (s.closes result) := by
  refine h.byRecorder ⟨rfl, rfl, rfl, rfl, rfl, rfl, rfl, fun hc => ⟨hc, rfl⟩⟩ h.commands h.completions.dropReceiver
    h.pending ?_ ⟨reason, hexited⟩ (fun hr => Or.inr (h.reported rfl hnoticed hr)) ?_
  · change List.Forall₂ _ (accepted (s.history.returned ++ [(.finish, result)])) _
    rw [accepted_append]
    exact (List.append_nil (accepted s.history.returned)).symm ▸ h.sends
  · intro result' hmem
    refine ⟨rfl, fun hr => ?_⟩
    rcases List.mem_append.mp hmem with hmem | hmem
    · exact (h.not_finished hlive result' hmem).elim
    · rw [List.mem_singleton, Prod.mk.injEq] at hmem
      obtain ⟨hreason, hpending⟩ := hok (hmem.2 ▸ hr)
      exact ⟨hreason ▸ hexited, hpending⟩

theorem WriterInv.phase (h : WriterInv shed start s) (hlive : s.recorder ≠ .gone) {phase : RecorderPhase W S}
    (hfits : RecorderFits shed { s with recorder := phase } phase) (hnoticed : s.recorder.Noticed → phase.Noticed) :
    WriterInv shed start { s with recorder := phase } :=
  h.byRecorder ⟨rfl, rfl, rfl, rfl, rfl, rfl, rfl, fun hc => ⟨hc, rfl⟩⟩ h.commands h.completions h.pending h.sends
    hfits (fun hr => (h.noticed hr).imp_left hnoticed) fun result hmem => (h.not_finished hlive result hmem).elim

theorem WriterInv.dropSender (h : WriterInv shed start s) (hlive : s.recorder ≠ .gone) {phase : RecorderPhase W S}
    (hfits : RecorderFits shed { s with commands := s.commands.dropSender, recorder := phase } phase)
    (hnoticed : s.recorder.Noticed → phase.Noticed) :
    WriterInv shed start { s with commands := s.commands.dropSender, recorder := phase } :=
  h.byRecorder ⟨rfl, rfl, rfl, rfl, rfl, rfl, rfl, fun _ => ⟨rfl, rfl⟩⟩ h.commands.dropSender h.completions h.pending
    h.sends hfits (fun hr => (h.noticed hr).imp_left hnoticed) fun result hmem =>
      (h.not_finished hlive result hmem).elim

theorem WriterInv.startCall (h : WriterInv shed start s) (hidle : s.recorder = .idle) (call : WriterCall W S) :
    WriterInv shed start (s.startCall call) := by
  have hopen := h.recorder
  rw [hidle] at hopen
  have hlive : s.recorder ≠ .gone := by
    rw [hidle]
    nofun
  have hnoticed : ¬ s.recorder.Noticed := by
    rw [hidle]
    exact id
  cases call with
  | finish => exact h.dropSender hlive ⟨rfl, hopen.2⟩ fun hn => (hnoticed hn).elim
  | submit window => exact h.phase hlive hopen fun hn => (hnoticed hn).elim
  | replaceSymbolizer symbolizer => exact h.phase hlive hopen fun hn => (hnoticed hn).elim
  | checkCompleted => exact h.phase hlive hopen fun hn => (hnoticed hn).elim

section
variable {call : WriterCall W S} {panicked : Bool} {firstError : Option String}
  (h : WriterInv shed start s) (hphase : s.recorder = .checking call panicked firstError)

include h hphase

omit h in
theorem checking_live : s.recorder ≠ .gone := by
  rw [hphase]
  nofun

theorem WriterInv.checking_fits : CallFits s panicked call ∧ s.completions.receiver = true := by
  have hfits := h.recorder
  rwa [hphase] at hfits

theorem WriterInv.fails (error : String) : WriterInv shed start (s.fails error call) := by
  have hlive := checking_live hphase
  obtain ⟨hfits, hreceiver⟩ := h.checking_fits hphase
  cases call with
  | finish =>
    obtain ⟨-, reason, hexited, -⟩ := hfits
    exact h.closes hlive hexited nofun fun _ => ⟨error, rfl⟩
  | submit window => exact h.returns hlive ⟨hfits, hreceiver⟩ (by nofun) rfl fun _ => ⟨error, rfl⟩
  | replaceSymbolizer symbolizer => exact h.returns hlive ⟨hfits, hreceiver⟩ (by nofun) rfl fun _ => ⟨error, rfl⟩
  | checkCompleted => exact h.returns hlive ⟨hfits, hreceiver⟩ (by nofun) rfl fun _ => ⟨error, rfl⟩

/-- `finish` goes on without an error only when the worker has written everything. -/
theorem WriterInv.finishChecked (hcall : call = .finish) (hfirst : firstError = none) :
    WriterInv shed start (s.finishChecked panicked) := by
  have hlive := checking_live hphase
  obtain ⟨hfits, -⟩ := h.checking_fits hphase
  rw [hcall] at hfits
  obtain ⟨-, reason, hexited, hpanicked⟩ := hfits
  have hnoticed : ¬ s.recorder.Noticed := by
    rw [hphase, hfirst]
    exact id
  unfold WriterState.finishChecked
  by_cases hp : panicked = true
  · rw [if_pos hp]
    exact h.closes hlive hexited nofun fun _ => ⟨_, rfl⟩
  · rw [if_neg hp]
    have hreason : reason = .closed := by
      have hstopped := h.worker
      rw [hexited] at hstopped
      cases reason with
      | closed => rfl
      | unheard => exact (Stopped.heard hstopped rfl).elim
      | panicked => exact (hp hpanicked).elim
    by_cases hpending : s.pending ≠ 0
    · rw [if_pos hpending]
      exact h.closes hlive hexited nofun fun _ => ⟨_, rfl⟩
    · rw [if_neg hpending]
      rw [not_not] at hpending
      by_cases hexporter : s.exporter = true
      · rw [if_pos hexporter]
        exact h.phase hlive ⟨hreason ▸ hexited, hpending⟩ fun hn => (hnoticed hn).elim
      · rw [if_neg hexporter]
        exact h.closes hlive hexited (fun _ => ⟨hreason, hpending⟩) fun hn => (hnoticed hn).elim

theorem WriterInv.checked {found : Option String} (hfound : firstError ≠ none → found ≠ none) :
    WriterInv shed start (s.checked shed call panicked found) := by
  cases found with
  | some error => exact h.fails hphase error
  | none =>
    have hfirst : firstError = none := by
      by_contra hne
      exact hfound hne rfl
    have hlive := checking_live hphase
    obtain ⟨hfits, hreceiver⟩ := h.checking_fits hphase
    have hnoticed : ¬ s.recorder.Noticed := by
      rw [hphase, hfirst]
      exact id
    cases call with
    | finish => exact h.finishChecked hphase rfl hfirst
    | checkCompleted => exact h.returns hlive ⟨hfits, hreceiver⟩ (by nofun) rfl fun hn => (hnoticed hn).elim
    | replaceSymbolizer symbolizer =>
      exact h.phase hlive ⟨⟨hfits, hreceiver⟩, .symbolizer symbolizer⟩ fun hn => (hnoticed hn).elim
    | submit window =>
      refine h.phase hlive ⟨⟨hfits, hreceiver⟩, ?_⟩ fun hn => (hnoticed hn).elim
      by_cases hpending : s.pending ≠ 0
      · rw [if_pos hpending]
        exact .shedWindow window s.pending
      · rw [if_neg hpending]
        exact .window window

end

/-- No more results have been sent than windows submitted. -/
theorem WriterInv.completed_le (h : WriterInv shed start s) :
    s.history.completed.length ≤ (submissions start s.history.sent).length := by
  obtain ⟨rest, hrest⟩ := h.commands.inOrder
  have hb := h.bound
  rw [← hrest, submissions_append, List.length_append]
  omega

theorem WriterInv.poll (h : WriterInv shed start s) {call : WriterCall W S} {panicked : Bool}
    {firstError : Option String} (hphase : s.recorder = .checking call panicked firstError) :
    WriterInv shed start (s.poll shed call panicked firstError) := by
  unfold WriterState.poll
  cases hr : s.completions.tryRecv with
  | empty => exact h.checked hphase id
  | disconnected =>
    refine h.checked hphase fun hne => ?_
    rw [if_neg fun hn => hne hn.2]
    exact hne
  | received result completions =>
    obtain ⟨hfits, hreceiver⟩ := h.checking_fits hphase
    obtain ⟨-, hcompletions⟩ := tryRecv_received hr
    have hcarries := h.completions.recv hr
    have hsender : completions.sender = s.completions.sender := by rw [hcompletions]
    refine h.byRecorder ⟨rfl, rfl, rfl, hsender, rfl, rfl, rfl, fun hc => ⟨hc, rfl⟩⟩ h.commands hcarries ?_ h.sends
      ⟨?_, ?_⟩ ?_ fun result' hmem => (h.not_finished (checking_live hphase) result' hmem).elim
    · -- the result is that of a pending window
      have hle := hcarries.inOrder.length_le
      have hcompleted := h.completed_le
      have hp := h.pending
      change s.pending - 1 + (s.history.received ++ [result]).length = _
      rw [List.length_append, List.length_singleton] at hle ⊢
      change _ = (submissions start s.history.sent).length
      omega
    · cases call with
      | finish => exact hfits
      | submit window => exact hfits
      | replaceSymbolizer symbolizer => exact hfits
      | checkCompleted => exact hfits
    · change completions.receiver = true
      rw [hcompletions]
      exact hreceiver
    · rintro ⟨error, hmem⟩
      rcases List.mem_append.mp hmem with hmem | hmem
      · refine (h.noticed ⟨error, hmem⟩).imp_left fun hn => ?_
        rw [hphase] at hn
        cases firstError with
        | none => exact hn.elim
        | some first => trivial
      · left
        rw [← List.mem_singleton.mp hmem]
        cases firstError with
        | none => trivial
        | some first => trivial

theorem WriterInv.send (h : WriterInv shed start s) {call : WriterCall W S} {command : WriterCommand W S}
    (hphase : s.recorder = .sending call command) (ht : s.send call command = some t) : WriterInv shed start t := by
  have hfits := h.recorder
  rw [hphase] at hfits
  obtain ⟨hopen, hsends⟩ := hfits
  have hlive : s.recorder ≠ .gone := by
    rw [hphase]
    nofun
  have hnoticed : ¬ s.recorder.Noticed := by
    rw [hphase]
    exact id
  have hcall : call ≠ .finish := by
    rintro rfl
    cases hsends
  unfold WriterState.send at ht
  rw [if_neg (by rw [hopen.1]; nofun)] at ht
  cases hc : s.commands.trySend command with
  | full =>
    rw [hc] at ht
    cases ht
  | disconnected =>
    rw [hc] at ht
    cases ht
    -- The worker is gone: the call returns its error and nothing is queued.
    refine h.returns hlive hopen hcall ?_ fun hn => (hnoticed hn).elim
    cases hsends with
    | window _ => rfl
    | shedWindow _ _ => rfl
    | symbolizer _ => rfl
  | sent commands =>
    rw [hc] at ht
    cases ht
    obtain ⟨-, -, hcommands⟩ := trySend_sent hc
    have hreceiver : commands.receiver = s.commands.receiver := by rw [hcommands]
    have hsender : commands.sender = true := by
      rw [hcommands]
      exact hopen.1
    have hreported : (∃ error, .error error ∈ s.history.received) → Reported s := fun hr =>
      (h.noticed hr).resolve_left hnoticed
    refine h.byRecorder ⟨rfl, rfl, hreceiver, rfl, rfl, rfl, rfl, ?_⟩ (h.commands.send hc) h.completions ?_ ?_
      ⟨hsender, hopen.2⟩ (fun hr => Or.inr (reported_snoc rfl (Or.inl (hreported hr)))) ?_
    · intro hclosed
      rw [hopen.1] at hclosed
      cases hclosed
    · change s.pending + command.windows + s.history.received.length =
        (submissions start (s.history.sent ++ [command])).length
      have hp := h.pending
      rw [submissions_length_snoc]
      omega
    · change List.Forall₂ _ (accepted (s.history.returned ++ [(call, .ok ())])) (s.history.sent ++ [command])
      rw [accepted_append]
      refine List.rel_append h.sends ?_
      cases hsends with
      | window window => exact List.Forall₂.cons (.window window) List.Forall₂.nil
      | shedWindow window pending => exact List.Forall₂.cons (.shedWindow window pending) List.Forall₂.nil
      | symbolizer symbolizer => exact List.Forall₂.cons (.symbolizer symbolizer) List.Forall₂.nil
    · intro result' hmem
      rcases List.mem_append.mp hmem with hmem | hmem
      · exact (h.not_finished hlive result' hmem).elim
      · rw [List.mem_singleton, Prod.mk.injEq] at hmem
        exact (hcall hmem.1.symm).elim

theorem WriterInv.join (h : WriterInv shed start s) (hr : s.recorder = .joining) {reason : WorkerEnd}
    (hw : s.worker = .exited reason) :
    WriterInv shed start { s with recorder := .checking .finish (reason = .panicked) none } := by
  have hfits := h.recorder
  rw [hr] at hfits
  refine h.phase (by rw [hr]; nofun) ?_ fun hn => ?_
  · exact ⟨⟨hfits.1, reason, hw, rfl⟩, hfits.2⟩
  · rw [hr] at hn
    exact hn.elim

theorem WriterInv.dropped (h : WriterInv shed start s) (hr : s.recorder = .dropping) {reason : WorkerEnd}
    (hw : s.worker = .exited reason) :
    WriterInv shed start { s with completions := s.completions.dropReceiver, recorder := .gone } := by
  have hlive : s.recorder ≠ .gone := by
    rw [hr]
    nofun
  refine h.byRecorder ⟨rfl, rfl, rfl, rfl, rfl, rfl, rfl, fun hc => ⟨hc, rfl⟩⟩ h.commands
    h.completions.dropReceiver h.pending h.sends ⟨reason, hw⟩ (fun herror => ?_)
    fun result hmem => (h.not_finished hlive result hmem).elim
  refine Or.inr ((h.noticed herror).resolve_left fun hn => ?_)
  rw [hr] at hn
  exact hn.elim

theorem WriterInv.flush (h : WriterInv shed start s) (hr : s.recorder = .flushing) (result : Except String Unit) :
    WriterInv shed start (s.closes result) := by
  have hfits := h.recorder
  rw [hr] at hfits
  refine h.closes (by rw [hr]; nofun) hfits.1 (fun _ => ⟨rfl, hfits.2⟩) fun hn => ?_
  rw [hr] at hn
  exact hn.elim

theorem WriterInv.drop (h : WriterInv shed start s) (hr : s.recorder = .idle) :
    WriterInv shed start { s with commands := s.commands.dropSender, recorder := .dropping } := by
  have hfits := h.recorder
  rw [hr] at hfits
  refine h.dropSender (by rw [hr]; nofun) ⟨rfl, hfits.2⟩ fun hn => ?_
  rw [hr] at hn
  exact hn.elim

/-! ## The worker's steps -/

theorem installed_snoc_window (symbolizer : S) (as : List (WriterCommand W S)) (window : W) :
    installed symbolizer (as ++ [.window window]) = installed symbolizer as := by
  rw [installed_append]
  rfl

theorem WriterInv.receive (h : WriterInv shed start s) (hw : s.worker = .receiving) (ht : s.receive = some t) :
    WriterInv shed start t := by
  have hworker := h.worker
  rw [hw] at hworker
  obtain ⟨hrunning, hdone⟩ := hworker
  have hnot : ∀ reason, s.worker ≠ .exited reason := by
    rw [hw]
    nofun
  unfold WriterState.receive at ht
  cases hc : s.commands.tryRecv with
  | empty =>
    rw [hc] at ht
    cases ht
  | disconnected =>
    rw [hc] at ht
    cases ht
    obtain ⟨hqueue, hsender⟩ := tryRecv_disconnected hc
    have htaken := h.commands.drained hrunning.receiver hqueue
    exact h.byWorker hnot ⟨rfl, rfl, rfl, rfl, rfl, rfl, rfl⟩ h.commands h.completions h.bound
      ⟨nofun, fun _ => ⟨hsender, htaken, hdone.written, hdone.completed⟩⟩
  | received command commands =>
    obtain ⟨-, hcommands⟩ := tryRecv_received hc
    have hsender : commands.sender = s.commands.sender := by rw [hcommands]
    have hreceiver : commands.receiver = true := by
      rw [hcommands]
      exact hrunning.receiver
    have hbound : s.history.completed.length ≤ (submissions start (s.history.taken ++ [command])).length := by
      rw [submissions_length_snoc]
      exact Nat.le_add_right_of_le h.bound
    cases command with
    | window window =>
      rw [hc] at ht
      cases ht
      refine h.byWorker hnot ⟨rfl, rfl, hsender, rfl, rfl, rfl, rfl⟩ (h.commands.recv hc) h.completions hbound
        ⟨⟨hreceiver, hrunning.sender, ?_⟩, ?_, hdone.completed⟩
      · exact hrunning.symbolizer.trans (installed_snoc_window start s.history.taken window).symm
      · change submissions start (s.history.taken ++ [.window window]) = _
        rw [submissions_append, hdone.written, ← hrunning.symbolizer]
        rfl
    | replaceSymbolizer symbolizer =>
      rw [hc] at ht
      cases ht
      refine h.byWorker hnot ⟨rfl, rfl, hsender, rfl, rfl, rfl, rfl⟩ (h.commands.recv hc) h.completions hbound
        ((congrArg (WorkerFits start _) hw).mpr ⟨⟨hreceiver, hrunning.sender, ?_⟩, ?_, hdone.completed⟩)
      · change symbolizer = installed start (s.history.taken ++ [.replaceSymbolizer symbolizer])
        rw [installed_append]
        rfl
      · change submissions start (s.history.taken ++ [.replaceSymbolizer symbolizer]) = _
        rw [submissions_append, hdone.written]
        exact List.append_nil _

theorem WriterInv.write (h : WriterInv shed start s) {window : W} (hw : s.worker = .writing window)
    (result : Except String Unit) : WriterInv shed start (s.write window result) := by
  have hworker := h.worker
  rw [hw] at hworker
  obtain ⟨hrunning, hwritten, hcompleted⟩ := hworker
  refine h.byWorker (by rw [hw]; nofun) ⟨rfl, rfl, rfl, rfl, rfl, rfl, rfl⟩ h.commands h.completions h.bound
    ⟨⟨hrunning.receiver, hrunning.sender, hrunning.symbolizer⟩, ?_, ?_⟩
  · change submissions start s.history.taken = (s.history.written ++ [(window, s.symbolizer, result)]).map _
    rw [List.map_append]
    exact hwritten
  · change s.history.completed ++ [result] = (s.history.written ++ [(window, s.symbolizer, result)]).map _
    rw [List.map_append, hcompleted]
    rfl

/-- There is always someone to hear of a result. -/
theorem WriterInv.complete (h : WriterInv shed start s) {result : Except String Unit}
    (hw : s.worker = .completing result) (ht : s.complete result = some t) : WriterInv shed start t := by
  have hworker := h.worker
  rw [hw] at hworker
  obtain ⟨hrunning, hwritten, hcompleted⟩ := hworker
  have hnot : ∀ reason, s.worker ≠ .exited reason := by
    rw [hw]
    nofun
  unfold WriterState.complete at ht
  cases hc : s.completions.trySend result with
  | full =>
    rw [hc] at ht
    cases ht
  | disconnected =>
    have hlost := trySend_disconnected hc
    rw [h.recorder.receiver hnot] at hlost
    cases hlost
  | sent completions =>
    rw [hc] at ht
    cases ht
    obtain ⟨-, -, hcompletions⟩ := trySend_sent hc
    have hsender : completions.sender = true := by
      rw [hcompletions]
      exact hrunning.sender
    refine h.byWorker hnot ⟨rfl, rfl, rfl, by rw [hcompletions], rfl, rfl, rfl⟩ h.commands (h.completions.send hc) ?_
      ⟨⟨hrunning.receiver, hsender, hrunning.symbolizer⟩, hwritten, hcompleted⟩
    have hlength := congrArg List.length hwritten
    have hlength' := congrArg List.length hcompleted
    rw [List.length_map] at hlength hlength'
    exact (hlength'.trans hlength.symm).le

theorem WriterInv.stops (h : WriterInv shed start s) (hw : ∀ reason, s.worker ≠ .exited reason)
    {worker : OutputWorker W} (hfits : WorkerFits start { s with worker := worker } worker) :
    WriterInv shed start { s with worker := worker } :=
  h.byWorker hw ⟨rfl, rfl, rfl, rfl, rfl, rfl, rfl⟩ h.commands h.completions h.bound hfits

theorem WriterInv.recorderStep (h : WriterInv shed start s) {action : WriterStep W S}
    (ht : s.recorderStep shed action = some t) : WriterInv shed start t := by
  cases WriterState.recorderStep_moves ht with
  | call call hr => exact h.startCall hr call
  | poll hr => exact h.poll hr
  | send hr hsend => exact h.send hr hsend
  | join hr hw => exact h.join hr hw
  | dropped hr hw => exact h.dropped hr hw
  | flush result hr => exact h.flush hr result
  | drop hr => exact h.drop hr

theorem WriterInv.stopping (h : WriterInv shed start s) {reason : WorkerEnd} (hw : s.worker = .stopping reason) :
    (∀ reason, s.worker ≠ .exited reason) ∧ Stopped start s reason := by
  have hworker := h.worker
  rw [hw] at hworker
  exact ⟨by rw [hw]; nofun, hworker⟩

theorem WriterInv.workerStep (h : WriterInv shed start s) {action : WriterStep W S}
    (ht : s.workerStep action = some t) : WriterInv shed start t := by
  cases WriterState.workerStep_moves ht with
  | receive hw hreceive => exact h.receive hw hreceive
  | write result hw => exact h.write hw result
  | complete hw hcomplete => exact h.complete hw hcomplete
  | panic hrunning => exact h.stops (fun reason => (hrunning reason).2) ⟨nofun, nofun⟩
  | dropCommands hw =>
    obtain ⟨hnot, hstopped⟩ := h.stopping hw
    exact h.byWorker hnot ⟨rfl, rfl, rfl, rfl, rfl, rfl, rfl⟩ h.commands.dropReceiver h.completions h.bound
      ((congrArg (WorkerFits start _) hw).mpr (hstopped.congr rfl rfl))
  | dropCompletions hw =>
    obtain ⟨hnot, hstopped⟩ := h.stopping hw
    exact h.byWorker hnot ⟨rfl, rfl, rfl, rfl, rfl, rfl, rfl⟩ h.commands h.completions.dropSender h.bound
      ((congrArg (WorkerFits start _) hw).mpr (hstopped.congr rfl rfl))
  | exit hw =>
    obtain ⟨hnot, hstopped⟩ := h.stopping hw
    exact h.stops hnot (hstopped.congr rfl rfl)

theorem WriterInv.step (h : WriterInv shed start s) {action : WriterStep W S} (ht : s.step shed action = some t) :
    WriterInv shed start t := by
  rcases Option.or_eq_some_iff.mp ht with ht | ⟨-, ht⟩
  · exact h.recorderStep ht
  · exact h.workerStep ht

end

/-! ## Whole runs -/

/-- The worker's loop has ended, but not because the commands were closed. -/
def OutputWorker.StoppedEarly : OutputWorker W → Prop
  | .stopping reason => reason ≠ .closed
  | .exited reason => reason ≠ .closed
  | _ => False

/-- What was submitted is written in order, or else some call says that it was not. -/
structure FaithfulFifo (start : S) (s : WriterState W S) : Prop where
  pending : s.pending + s.history.received.length = (submissions start s.history.sent).length
  sent : List.Forall₂ (Sends shed) (accepted s.history.returned) s.history.sent
  written : (.finish, .ok ()) ∈ s.history.returned → (∀ r ∈ s.history.returned, r.2 = .ok ()) →
    s.history.written = (submissions start s.history.sent).map fun w => (w.1, w.2, .ok ())
  failed : (∃ result, (.finish, result) ∈ s.history.returned) →
    ((∃ w ∈ s.history.written, ∃ error, w.2.2 = .error error) ∨ s.worker.StoppedEarly) → Reported s

section
variable {shed} {start : S} {s : WriterState W S}

theorem not_reported (h : ∀ r ∈ s.history.returned, r.2 = .ok ()) : ¬ Reported s := by
  rintro ⟨call, error, hmem⟩
  cases h _ hmem

/-- Once `finish` has succeeded the recorder has heard the result of every window. -/
theorem WriterInv.all_received (h : WriterInv shed start s) (hfinish : (.finish, .ok ()) ∈ s.history.returned) :
    s.history.taken = s.history.sent ∧ UpToDate start s ∧ s.history.received = s.history.completed := by
  obtain ⟨hexited, hpending⟩ := (h.finished _ hfinish).2 rfl
  have hworker := h.worker
  rw [hexited] at hworker
  obtain ⟨-, htaken, hdone⟩ := Stopped.closed hworker rfl
  have hlength : s.history.received.length = s.history.completed.length := by
    have hp := h.pending
    rw [hpending, Nat.zero_add, ← htaken, hdone.written, List.length_map] at hp
    rw [hp, hdone.completed, List.length_map]
  exact ⟨htaken, hdone, h.completions.inOrder.eq_of_length hlength⟩

theorem WriterInv.faithful (h : WriterInv shed start s) : FaithfulFifo shed start s := by
  refine ⟨h.pending, h.sends, fun hfinish hall => ?_, ?_⟩
  · obtain ⟨htaken, hdone, hreceived⟩ := h.all_received hfinish
    have hgone := (h.finished _ hfinish).1
    have hok : ∀ w ∈ s.history.written, w.2.2 = .ok () := by
      intro w hw
      cases hresult : w.2.2 with
      | ok => rfl
      | error error =>
        have hmem : .error error ∈ s.history.received := by
          rw [hreceived, hdone.completed]
          exact hresult ▸ List.mem_map_of_mem hw
        rcases h.noticed ⟨error, hmem⟩ with hn | hn
        · rw [hgone] at hn
          exact hn.elim
        · exact (not_reported hall hn).elim
    rw [← htaken, hdone.written, List.map_map]
    refine (List.map_id _).symm.trans (List.map_congr_left fun w hw => ?_)
    change (w.1, w.2.1, w.2.2) = (w.1, w.2.1, .ok ())
    rw [hok w hw]
  · rintro ⟨result, hfinish⟩ hwrong
    cases result with
    | error error => exact ⟨.finish, error, hfinish⟩
    | ok =>
      obtain ⟨hexited, -⟩ := (h.finished _ hfinish).2 rfl
      obtain ⟨-, hdone, hreceived⟩ := h.all_received hfinish
      rcases hwrong with ⟨w, hw, error, herror⟩ | hearly
      · have hmem : .error error ∈ s.history.received := by
          rw [hreceived, hdone.completed]
          exact herror ▸ List.mem_map_of_mem hw
        refine (h.noticed ⟨error, hmem⟩).resolve_left fun hn => ?_
        rw [(h.finished _ hfinish).1] at hn
        exact hn.elim
      · rw [hexited] at hearly
        exact (hearly rfl).elim

end

/-- **The output writer is a faithful queue.** In every order of the two threads' steps, and whatever the writes
and the exporter return. -/
theorem outputWriter_faithful (symbolizer : S) (exporter : Bool) (steps : List (WriterStep W S)) (s : WriterState W S)
    (h : run (WriterState.step shed) (.start symbolizer exporter) steps = some s) : FaithfulFifo shed symbolizer s :=
  WriterInv.faithful (run_inv' _ (fun _ _ _ hs ht => WriterInv.step hs ht) (writerInv_start shed symbolizer exporter) h)

def twoWindows : List (WriterStep ℕ ℕ) :=
  [.call (.submit 10), .poll, .send, .call (.replaceSymbolizer 7), .poll, .receive, .send, .write (.ok ()), .complete,
    .receive, .call (.submit 11), .poll, .poll, .send, .receive, .write (.ok ()), .call .finish, .complete, .receive,
    .dropCommands, .dropCompletions, .exit, .join, .poll, .poll]

theorem outputWriter_faithful_twoWindows : ∃ s, run (WriterState.step fun window _ => window)
    (.start 5 false : WriterState ℕ ℕ) twoWindows = some s ∧
    s.history.written = [(10, 5, .ok ()), (11, 7, .ok ())] ∧ FaithfulFifo (fun window _ => window) 5 s :=
  ⟨_, rfl, rfl, outputWriter_faithful (fun window _ => window) 5 false twoWindows _ rfl⟩

end

end RustProfile
