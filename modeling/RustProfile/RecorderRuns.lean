import RustProfile.RecordSound
import RustProfile.RecorderSound

/-!
# Recordings

Whatever the kernel, the collectors and the output worker answer, and wherever a
recording breaks off, its windows are coherent. Where it succeeds, the worker
has written each of them, in order and with the symbolizer of its process.
-/

namespace RustProfile

open Attempt Run

namespace Recorder

/-! ## The windows of a recording -/

section
variable {F δ ω : Type} (world : RecorderWorld F δ ω) (args : Args) (limit : ℕ)

/-- The recording of a target as it was resolved. -/
def recording (outside : ω) (resolver : TargetResolver) (inspection : Inspection) :
    Except RecordError Unit × Session ω :=
  outcome (record world args limit) (.start outside resolver inspection)

variable {outside : ω} {resolver : TargetResolver} {inspection : Inspection}

theorem placed_start (h : Resolved resolver.identity resolver) :
    Placed world.float args resolver.identity [] resolver.last.pid (Session.start outside resolver inspection) where
  coherent := coherent_nil _
  windows := rfl
  count := rfl
  accepted := fun _ hcalled => absurd hcalled List.not_mem_nil
  resolver := h
  pid := rfl
  target := h.pid
  denotes := h.denotes

theorem recording_ended {targetArgs : TargetArgs} {first : TargetWorld}
    (hresolved : TargetResolver.resolveInitial targetArgs first = .ok resolver) {session : Session ω}
    (hrecording : recording world args limit outside resolver inspection = (.ok (), session)) :
    Ended world.float args resolver.identity session ∧ ∃ called ∈ session.calls, called.call = .finish :=
  (record_ended world limit).ok (placed_start world args (resolved_initially hresolved)) hrecording

/-- **A recording is coherent.** -/
theorem record_coherent {targetArgs : TargetArgs} {first : TargetWorld}
    (hresolved : TargetResolver.resolveInitial targetArgs first = .ok resolver) (outside : ω)
    (inspection : Inspection) :
    Logged world.float args resolver.identity (recording world args limit outside resolver inspection).2 := by
  cases hend : recording world args limit outside resolver inspection with
  | mk result session =>
    cases result with
    | ok value => exact (recording_ended world args limit hresolved hend).1.logged
    | error error =>
      exact (record_ended world limit).error (placed_start world args (resolved_initially hresolved)) hend

end

/-! A container that executes a new image in its first window. The number counts down to the stop. -/

def briefAnswer : {α : Type} → Request Unit α → ℕ → Except String α
  | _, .openPidfd _, _ => .ok ()
  | _, .pidfdExited _, _ => .ok false
  | _, .cgroupPath _, _ => .ok (some "/docker/c0ffee")
  | _, .executableIdentity _, _ => .ok ⟨1, 2, 3, 4⟩
  | _, .readProcessMaps _, _ => .ok []
  | _, .processStartTime _, _ => .ok 1234
  | _, .inspect _, _ => .ok ⟨"app", "x86_64", "6.1", true, ⟨none, false, none⟩, []⟩
  | _, .buildSymbolizer _ _, _ => .ok ()
  | _, .startWriter _, _ => .ok ()
  | _, .writer _, _ => .ok ()
  | _, .attachLifecycle _, _ => .ok (.ok ())
  | _, .startCpu _ _ _, _ => .ok ()
  | _, .captureClock, _ => .ok 5
  | _, .consumeLifecycle, left => .ok ⟨false, left = 3⟩
  | _, .waitAndIngest, _ => .ok ⟨[], none⟩
  | _, .drainAndIngest, _ => .ok ⟨[], none⟩
  | _, _, _ => .error "no answer"

def brief : RecorderWorld ℕ Unit ℕ where
  float := ⟨0, 90, 70, fun a b => 100 * a / b, min, fun a b => a < b, toString⟩
  comm := ⟨fun left _ _ => (none, left)⟩
  stopped := fun left => (left = 0, left - 1)
  now := fun left => (0, left)
  unixNanos := fun left => (1000, left)
  answer := fun request left => (briefAnswer request left, left)

def briefArgs : Args where
  pid := 7
  cpuFrequency := exampleFrequency
  allocInterval := 1
  maxStacks := 10
  maxThreads := 10
  maxTimelineSamples := 10
  unwind := .fp
  duration := 0
  window := 1000
  allowPartial := false
  launchCgroup := none
  resumePid := none
  nativeArchitecture := "x86_64"

def briefInspection : Inspection := ⟨"app", "x86_64", "6.1", true, ⟨none, false, none⟩, []⟩

def briefResolver : TargetResolver where
  selector := .docker "app"
  identity := .docker "c0ffee"
  last :=
    { pid := 7
      metadata :=
        { pid := 7
          kind := .docker
          processStartTimeTicks := 1234
          containerId := some "c0ffee"
          containerName := some "app" } }

theorem record_coherent_brief : ∃ session, (recording brief briefArgs 3 5 briefResolver briefInspection).2 = session ∧
    (recorded session.firstSymbolizer session.calls).map (·.window.warnings) = [[execMessage], []] ∧
      Logged brief.float briefArgs briefResolver.identity session :=
  ⟨_, rfl, by decide +kernel, record_coherent brief briefArgs 3 TargetResolver.containerAt_resolved 5 briefInspection⟩

/-! ## What is written -/

section
variable (args : Args)

/-- The call and its result, as the output writer sees them. -/
def Called.returned (self : Called) : WriterCall Record.WindowOutput ProcessSymbolizer × Except String Unit :=
  (self.call.map (RecordedWindow.output args), self.result)

/-- The worker has written the window, or what `shed_derived_outputs` leaves of it, with the symbolizer that it was
submitted with. -/
structure WrittenAs (submission : Submission)
    (written : Record.WindowOutput × ProcessSymbolizer × Except String Unit) : Prop where
  window : written.1 = submission.window.output args ∨ Record.Shed (submission.window.output args) written.1
  symbolizer : written.2.1 = submission.symbolizer
  result : written.2.2 = .ok ()

variable {args}

theorem recorded_writes : ∀ (symbolizer : ProcessSymbolizer) (calls : List Called)
    {sent : List (WriterCommand Record.WindowOutput ProcessSymbolizer)},
    List.Forall₂ (Sends Record.WindowOutput.shedDerivedOutputs) (accepted (calls.map (Called.returned args))) sent →
      List.Forall₂ (WrittenAs args) (recorded symbolizer calls)
        ((submissions symbolizer sent).map fun w => (w.1, w.2, .ok ()))
  | _, [], sent, h => by
    cases h
    exact .nil
  | symbolizer, ⟨call, result, collectors⟩ :: calls, sent, h => by
    cases call with
    | submit window =>
      cases result with
      | error error => exact recorded_writes _ calls h
      | ok value =>
        obtain ⟨command, rest, hsends, hrest, rfl⟩ := List.forall₂_cons_left_iff.mp h
        cases hsends with
        | window => exact .cons ⟨.inl rfl, rfl, rfl⟩ (recorded_writes _ calls hrest)
        | shedWindow _ pending =>
          have hshed := Record.shedDerivedOutputs_shed (window.output args) pending
          exact .cons ⟨.inr hshed, rfl, rfl⟩ (recorded_writes _ calls hrest)
    | replaceSymbolizer replacement =>
      cases result with
      | error error => exact recorded_writes _ calls h
      | ok value =>
        obtain ⟨command, rest, hsends, hrest, rfl⟩ := List.forall₂_cons_left_iff.mp h
        cases hsends
        exact recorded_writes _ calls hrest
    | checkCompleted => exact recorded_writes _ calls h
    | finish => exact recorded_writes _ calls h

theorem symbolizers_of_written : ∀ {recorded : List Submission}
    {written : List (Record.WindowOutput × ProcessSymbolizer × Except String Unit)},
    (∀ submission ∈ recorded, submission.symbolizer.pid = submission.window.pid) →
      List.Forall₂ (WrittenAs args) recorded written →
        written.map (·.2.1.pid) = recorded.map (·.window.pid)
  | _, _, _, .nil => rfl
  | submission :: recorded, _ :: _, hown, .cons hwritten hrest => by
    have ih := symbolizers_of_written (fun s hs => hown s (List.mem_cons_of_mem _ hs)) hrest
    simp only [List.map_cons, ih, hwritten.symbolizer, hown submission List.mem_cons_self]

end

section
variable {F δ ω : Type} (world : RecorderWorld F δ ω) (args : Args) (limit : ℕ) {outside : ω}
  {resolver : TargetResolver} {inspection : Inspection}

/-- **What was recorded is written.** In every order of the recorder's and the worker's steps, once the recording has
succeeded; a window that found another pending may lack what is derived from its profiles. -/
theorem record_written {targetArgs : TargetArgs} {first : TargetWorld}
    (hresolved : TargetResolver.resolveInitial targetArgs first = .ok resolver) {session : Session ω}
    (hrecording : recording world args limit outside resolver inspection = (.ok (), session)) (exporter : Bool)
    (steps : List (WriterStep Record.WindowOutput ProcessSymbolizer))
    {s : WriterState Record.WindowOutput ProcessSymbolizer}
    (hrun : run (WriterState.step Record.WindowOutput.shedDerivedOutputs) (.start session.firstSymbolizer exporter)
      steps = some s)
    (hcalls : s.history.returned = session.calls.map (Called.returned args)) :
    List.Forall₂ (WrittenAs args) (recorded session.firstSymbolizer session.calls) s.history.written ∧
      s.history.written.map (·.2.1.pid) = (recorded session.firstSymbolizer session.calls).map (·.window.pid) := by
  obtain ⟨hended, finish, hmem, hfinish⟩ := recording_ended world args limit hresolved hrecording
  have hall : ∀ returned ∈ s.history.returned, returned.2 = .ok () := by
    rw [hcalls]
    intro returned hreturned
    obtain ⟨called, hcalled, rfl⟩ := List.mem_map.mp hreturned
    exact hended.accepted called hcalled
  have hfinished : (.finish, .ok ()) ∈ s.history.returned := by
    rw [hcalls]
    refine List.mem_map.mpr ⟨finish, hmem, ?_⟩
    rw [Called.returned, hfinish, hended.accepted finish hmem]
    rfl
  -- What the worker wrote is what was sent, by the invariant of every interleaving.
  have hfaithful : FaithfulFifo Record.WindowOutput.shedDerivedOutputs session.firstSymbolizer s :=
    WriterInv.faithful (run_inv' _ (fun _ _ _ hs ht => WriterInv.step hs ht) (writerInv_start _ _ exporter) hrun)
  have hwritten : List.Forall₂ (WrittenAs args) (recorded session.firstSymbolizer session.calls) s.history.written := by
    rw [hfaithful.written hfinished hall]
    refine recorded_writes _ _ ?_
    rw [← hcalls]
    exact hfaithful.sent
  refine ⟨hwritten, ?_⟩
  have hown : ∀ submission ∈ recorded session.firstSymbolizer session.calls,
      submission.symbolizer.pid = submission.window.pid := fun submission hsubmission =>
    (hended.logged.fits submission hsubmission).symbolizer
  exact symbolizers_of_written hown hwritten

end

/-! ## A worker that keeps up -/

section
variable {W S : Type} (shed : W → ℕ → W)

/-- Between two calls: the result of the last window may be waiting. -/
def caughtUp (waiting exporter : Bool) (symbolizer : S) (history : WriterHistory W S) : WriterState W S where
  commands := { capacity := some 1 }
  completions := { capacity := none, queue := if waiting then [.ok ()] else [] }
  pending := if waiting then 1 else 0
  exporter := exporter
  recorder := .idle
  worker := .receiving
  symbolizer := symbolizer
  history := history

def polls (waiting : Bool) : List (WriterStep W S) := if waiting then [.poll, .poll] else [.poll]

def servedCall (waiting : Bool) : WriterCall W S → List (WriterStep W S)
  | .submit window => .call (.submit window) :: polls waiting ++ [.send, .receive, .write (.ok ()), .complete]
  | .replaceSymbolizer symbolizer => .call (.replaceSymbolizer symbolizer) :: polls waiting ++ [.send, .receive]
  | .checkCompleted => .call .checkCompleted :: polls waiting
  | .finish => [.call .finish, .receive, .dropCommands, .dropCompletions, .exit, .join] ++ polls waiting

/-- Only the last of the calls is `finish`. -/
def closedByFinish : List (WriterCall W S) → Bool
  | [] => false
  | [.finish] => true
  | .finish :: _ => false
  | _ :: calls => closedByFinish calls

theorem served (waiting : Bool) (symbolizer : S) (history : WriterHistory W S) : ∀ call : WriterCall W S,
    call ≠ .finish → ∃ waiting' symbolizer' history',
      run (WriterState.step shed) (caughtUp waiting false symbolizer history) (servedCall waiting call) =
        some (caughtUp waiting' false symbolizer' history') ∧ history'.returned = history.returned ++ [(call, .ok ())]
  | .submit window, _ => by cases waiting <;> exact ⟨true, _, _, rfl, rfl⟩
  | .replaceSymbolizer symbolizer, _ => by cases waiting <;> exact ⟨false, _, _, rfl, rfl⟩
  | .checkCompleted, _ => by cases waiting <;> exact ⟨false, _, _, rfl, rfl⟩
  | .finish, h => absurd rfl h

theorem served_finish (waiting : Bool) (symbolizer : S) (history : WriterHistory W S) : ∃ s,
    run (WriterState.step shed) (caughtUp waiting false symbolizer history) (servedCall waiting .finish) = some s ∧
      s.history.returned = history.returned ++ [(.finish, .ok ())] := by
  cases waiting <;> exact ⟨_, rfl, rfl⟩

/-- Any calls of a recorder can be served. -/
theorem served_all : ∀ (waiting : Bool) (symbolizer : S) (history : WriterHistory W S) (calls : List (WriterCall W S)),
    closedByFinish calls = true → ∃ steps s,
      run (WriterState.step shed) (caughtUp waiting false symbolizer history) steps = some s ∧
        s.history.returned = history.returned ++ calls.map fun call => (call, .ok ())
  | waiting, symbolizer, history, call :: calls, h => by
    by_cases hfinish : call = .finish
    · obtain rfl : calls = [] := by
        subst hfinish
        cases calls with
        | nil => rfl
        | cons call calls => exact absurd h Bool.false_ne_true
      subst hfinish
      exact ⟨_, served_finish shed waiting symbolizer history⟩
    · obtain ⟨waiting', symbolizer', history', hrun, hreturned⟩ := served shed waiting symbolizer history call
        hfinish
      have hrest : closedByFinish calls = true := by
        cases call with
        | finish => exact absurd rfl hfinish
        | submit window => exact h
        | replaceSymbolizer symbolizer => exact h
        | checkCompleted => exact h
      obtain ⟨steps, s, hsteps, hall⟩ := served_all waiting' symbolizer' history' calls hrest
      refine ⟨servedCall waiting call ++ steps, s, ?_, ?_⟩
      · rw [run_append, hrun]
        exact hsteps
      · rw [hall, hreturned, List.append_assoc]
        rfl

end

theorem record_written_brief : ∃ session steps s,
    recording brief briefArgs 3 5 briefResolver briefInspection = (.ok (), session) ∧
      run (WriterState.step Record.WindowOutput.shedDerivedOutputs) (.start session.firstSymbolizer false) steps =
        some s ∧
      s.history.written.length = 2 ∧
      List.Forall₂ (WrittenAs briefArgs) (recorded session.firstSymbolizer session.calls) s.history.written := by
  have hok : (recording brief briefArgs 3 5 briefResolver briefInspection).1.toOption.isSome = true := by decide +kernel
  have hclosed : closedByFinish ((recording brief briefArgs 3 5 briefResolver briefInspection).2.calls.map
      fun called => (called.returned briefArgs).1) = true := by decide +kernel
  have hcount : (recorded (recording brief briefArgs 3 5 briefResolver briefInspection).2.firstSymbolizer
      (recording brief briefArgs 3 5 briefResolver briefInspection).2.calls).length = 2 := by decide +kernel
  cases hrecording : recording brief briefArgs 3 5 briefResolver briefInspection with
  | mk result session =>
    rw [hrecording] at hok hclosed hcount
    cases result with
    | error error => cases hok
    | ok value =>
      obtain ⟨steps, s, hrun, hreturned⟩ := served_all Record.WindowOutput.shedDerivedOutputs false
        session.firstSymbolizer {} (session.calls.map fun called => (called.returned briefArgs).1) hclosed
      have hended := (recording_ended brief briefArgs 3 TargetResolver.containerAt_resolved hrecording).1
      have hcalls : s.history.returned = session.calls.map (Called.returned briefArgs) := by
        rw [hreturned, List.map_map]
        refine List.map_congr_left fun called hcalled => ?_
        rw [Called.returned, hended.accepted called hcalled]
        rfl
      obtain ⟨hwritten, -⟩ :=
        record_written brief briefArgs 3 TargetResolver.containerAt_resolved hrecording false steps hrun hcalls
      exact ⟨session, steps, s, rfl, hrun, hwritten.length_eq.symm.trans hcount, hwritten⟩

end Recorder

end RustProfile
