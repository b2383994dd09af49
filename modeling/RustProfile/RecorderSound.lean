import RustProfile.OutputWriterSound
import RustProfile.Recorder
import RustProfile.TargetSound

/-!
# Recorded windows are coherent

Each window that is submitted belongs to one process: the collectors are
attached to it, the symbolizer that the writer has by then was built for it and
its target metadata is of it. Between two windows the recorder goes on, follows
an exec or a restart, or gives up frame pointers, and says so. What one function
keeps is a triple; the recording is put together from them.
-/

namespace RustProfile

namespace Recorder

/-! ## What the windows say -/

/-- A window that the writer has accepted, with the symbolizer that it has by then and the collectors of the time. -/
structure Submission where
  window : RecordedWindow
  symbolizer : ProcessSymbolizer
  collectors : Collectors

def recorded : ProcessSymbolizer → List Called → List Submission
  | _, [] => []
  | symbolizer, ⟨.submit window, .ok _, collectors⟩ :: calls =>
    ⟨window, symbolizer, collectors⟩ :: recorded symbolizer calls
  | _, ⟨.replaceSymbolizer symbolizer, .ok _, _⟩ :: calls => recorded symbolizer calls
  | symbolizer, _ :: calls => recorded symbolizer calls

def lastSymbolizer : ProcessSymbolizer → List Called → ProcessSymbolizer
  | symbolizer, [] => symbolizer
  | _, ⟨.replaceSymbolizer symbolizer, .ok _, _⟩ :: calls => lastSymbolizer symbolizer calls
  | symbolizer, _ :: calls => lastSymbolizer symbolizer calls

end Recorder

/-- The metadata are of the target with the identity. -/
def LogicalIdentity.Denotes : LogicalIdentity → ResolvedMetadata → Prop
  | .process pid _, metadata => metadata.pid = pid
  | .docker containerId, metadata => metadata.containerId = some containerId
  | .kubernetes podNamespace pod podUid container, metadata =>
    metadata.k8sNamespace = some podNamespace ∧ metadata.k8sPodName = some pod ∧
      metadata.k8sPodUid = some podUid ∧ metadata.k8sContainerName = some container

namespace Recorder

open Attempt

section
variable {F : Type} (float : RatioF64 F) (args : Args)

/-- A mode that was asked for is kept; otherwise frame pointers or DWARF are used, DWARF for a reason. -/
def ModeFits (mode : UnwindMode) (reason : Option String) : Prop :=
  match args.unwind with
  | .auto => mode = .fp ∨ mode = .dwarf ∧ reason.isSome = true
  | requested => mode = requested ∧ reason = none

/-- The window holds what calls of `ingest_cpu_batch` added to a fresh one. -/
inductive Ingests (fresh : CpuWindow) : CpuWindow → Prop where
  | fresh : Ingests fresh fresh
  | call {δ ω : Type} {window : CpuWindow} (h : Ingests fresh window) (comm : CommReader ω) (world : ω)
      (call : IngestCall δ) : Ingests fresh (ingestCpuBatch comm window world call).1.window

structure WindowFits (identity : LogicalIdentity) (sessionId : String) (submission : Submission) : Prop where
  session : submission.window.sessionId = sessionId
  symbolizer : submission.symbolizer.pid = submission.window.pid
  collectors : submission.collectors.pid = submission.window.pid
  collectedMode : submission.collectors.mode = submission.window.selectedMode
  target : submission.window.target.pid = submission.window.pid
  identity : identity.Denotes submission.window.target
  requested : submission.window.requestedMode = args.unwind
  mode : ModeFits args submission.window.selectedMode submission.window.fallbackReason
  ingested : Ingests (args.at submission.window.pid).freshWindow submission.window.cpuWindow

def execMessage : String := "target executed a new image; this window ended at the exec boundary"

def heapExecMessage : String :=
  "heap probes were reattached after target exec; inuse values restart at that boundary"

def heapSwitchMessage : String :=
  "heap probes were reattached during the FP-to-DWARF transition; inuse values restart at that boundary"

def restartMessage (pid : ℤ) : String :=
  "target restarted with host PID " ++ toString pid ++ "; collectors were reattached and heap inuse values restarted"

structure Header where
  pid : ℤ
  target : ResolvedMetadata
  mode : UnwindMode
  reason : Option String
  heap : Bool
  warnings : List String

def switchReason (ratio : F) : String :=
  "formal FP window had only " ++ float.percent ratio ++ "% usable stacks; switched permanently to DWARF"

/-- How the next window follows the last one. -/
inductive Boundary (last : RecordedWindow) (next : Header) : Prop where
  | goesOn (hpid : next.pid = last.pid) (htarget : next.target = last.target) (hmode : next.mode = last.selectedMode)
      (hreason : next.reason = last.fallbackReason) (hheap : next.heap = last.heapProfile.isSome)
      (hwarnings : next.warnings = [])
  | switched (ratio : F) (hpid : next.pid = last.pid) (htarget : next.target = last.target)
      (hrequested : args.unwind = .auto) (hlast : last.selectedMode = .fp) (hmode : next.mode = .dwarf)
      (hratio : ∃ heap, fpUsableRatio float last.cpuWindow heap = some ratio)
      (hlow : float.lt ratio float.ninetyPercent = true) (hreason : next.reason = some (switchReason float ratio))
      (hheap : args.heap = true → heapSwitchMessage ∈ next.warnings)
  | exec (hpid : next.pid = last.pid) (hlast : execMessage ∈ last.warnings)
      (hheap : next.heap = true → heapExecMessage ∈ next.warnings)
  | restarted (hwarning : restartMessage next.pid ∈ next.warnings)

def Follows (last next : RecordedWindow) : Prop :=
  ∃ warnings, warnings <+: next.warnings ∧ Boundary float args last
    ⟨next.pid, next.target, next.selectedMode, next.fallbackReason, next.heapProfile.isSome, warnings⟩

/-- The windows are numbered from zero, each fits what it was recorded with and follows the one before it. -/
structure Coherent (identity : LogicalIdentity) (sessionId : String) (submissions : List Submission) : Prop where
  numbered : submissions.map (·.window.index) = List.range submissions.length
  fits : ∀ submission ∈ submissions, WindowFits args identity sessionId submission
  follows : (submissions.map (·.window)).IsChain (Follows float args)

end

theorem recorded_append : ∀ (symbolizer : ProcessSymbolizer) (as bs : List Called),
    recorded symbolizer (as ++ bs) = recorded symbolizer as ++ recorded (lastSymbolizer symbolizer as) bs
  | _, [], _ => rfl
  | symbolizer, ⟨call, result, collectors⟩ :: as, bs => by
    have ih := fun symbolizer => recorded_append symbolizer as bs
    cases call with
    | submit window => cases result <;> simp [recorded, lastSymbolizer, ih]
    | replaceSymbolizer replacement => cases result <;> simp [recorded, lastSymbolizer, ih]
    | checkCompleted => simp [recorded, lastSymbolizer, ih]
    | finish => simp [recorded, lastSymbolizer, ih]

/-- A call that no window is accepted with. -/
theorem recorded_snoc {symbolizer : ProcessSymbolizer} {calls : List Called} {called : Called}
    (h : ∀ symbolizer, recorded symbolizer [called] = []) :
    recorded symbolizer (calls ++ [called]) = recorded symbolizer calls := by
  rw [recorded_append, h, List.append_nil]

theorem lastSymbolizer_append : ∀ (symbolizer : ProcessSymbolizer) (as bs : List Called),
    lastSymbolizer symbolizer (as ++ bs) = lastSymbolizer (lastSymbolizer symbolizer as) bs
  | _, [], _ => rfl
  | symbolizer, ⟨call, result, collectors⟩ :: as, bs => by
    have ih := fun symbolizer => lastSymbolizer_append symbolizer as bs
    cases call with
    | submit window => simp [lastSymbolizer, ih]
    | replaceSymbolizer replacement => cases result <;> simp [lastSymbolizer, ih]
    | checkCompleted => simp [lastSymbolizer, ih]
    | finish => simp [lastSymbolizer, ih]

/-! ## What the recorder keeps -/

section
variable {F : Type} (float : RatioF64 F) (args : Args) (identity : LogicalIdentity) {ω : Type}

structure Resolved (resolver : TargetResolver) : Prop where
  same : resolver.identity = identity
  pid : resolver.last.metadata.pid = resolver.last.pid
  denotes : identity.Denotes resolver.last.metadata

structure Counted (submissions : List Submission) (s : Session ω) : Prop where
  coherent : Coherent float args identity s.sessionId submissions
  windows : recorded s.firstSymbolizer s.calls = submissions
  count : submissions.length = s.windowIndex
  accepted : ∀ called ∈ s.calls, called.result = .ok ()
  resolver : Resolved identity s.resolver

structure Placed (submissions : List Submission) (process : ℤ) (s : Session ω) : Prop
    extends Counted float args identity submissions s where
  pid : s.pid = process
  target : s.preflight.target.pid = process
  denotes : identity.Denotes s.preflight.target

structure Chosen (submissions : List Submission) (process : ℤ) (s : Session ω) : Prop
    extends Placed float args identity submissions process s where
  mode : ModeFits args s.selectedMode s.fallbackReason

structure Symbolized (submissions : List Submission) (process : ℤ) (s : Session ω) : Prop
    extends Chosen float args identity submissions process s where
  symbolizer : (lastSymbolizer s.firstSymbolizer s.calls).pid = process

/-- The collectors are attached to the process too. -/
structure Steady (submissions : List Submission) (process : ℤ) (s : Session ω) : Prop
    extends Symbolized float args identity submissions process s where
  collectors : s.collectors.pid = process
  collectedMode : s.collectors.mode = s.selectedMode

def Session.header (s : Session ω) : Header where
  pid := s.pid
  target := s.preflight.target
  mode := s.selectedMode
  reason := s.fallbackReason
  heap := s.collectors.heap
  warnings := s.collectors.warnings

structure Ready (submissions : List Submission) (process : ℤ) (s : Session ω) : Prop
    extends Steady float args identity submissions process s where
  next : ∀ last ∈ submissions.getLast?, Boundary float args last.window s.header

structure InWindow (submissions : List Submission) (process : ℤ) (s : Session ω) : Prop
    extends Steady float args identity submissions process s where
  taken : s.collectors.warnings = []
  next : ∀ last ∈ submissions.getLast?, ∃ warnings, warnings <+: s.window.warnings ∧
    Boundary float args last.window { s.header with warnings := warnings }
  ingested : Ingests (args.at process).freshWindow s.window.cpuWindow
  exec : s.window.execDetected = true → execMessage ∈ s.window.warnings

/-- However the recording ends, its windows are coherent. -/
def Logged (s : Session ω) : Prop :=
  Coherent float args identity s.sessionId (recorded s.firstSymbolizer s.calls)

/-- Where it ends well the writer has accepted every call. -/
structure Ended (s : Session ω) : Prop where
  logged : Logged float args identity s
  accepted : ∀ called ∈ s.calls, called.result = .ok ()

end

/-! ## The world's answers -/

section
variable {F δ ω α : Type} {Inv : Session ω → Prop} (world : RecorderWorld F δ ω)

/-- The invariant does not look at what is outside of the recorder. -/
def Blind (Inv : Session ω → Prop) : Prop := ∀ s outside, Inv s → Inv { s with outside := outside }

theorem keeps_observe (h : Blind Inv) (f : ω → α × ω) : Keeps Inv (observe f) := fun s hs => h s _ hs

theorem keeps_ask (h : Blind Inv) (request : Request δ α) : Keeps Inv (ask world request) :=
  (keeps_observe h _).bind fun _ => keeps_ofExcept _

theorem keeps_bail (message : String) : Keeps Inv (bail message : Recording ω α) := keeps_throw _

theorem keeps_unixNanos (h : Blind Inv) : Keeps Inv (unixNanos world) :=
  (keeps_observe h _).bind fun _ => keeps_pure _

theorem keeps_deadlineReached (h : Blind Inv) : Keeps Inv (deadlineReached world) := by
  refine keeps_get.bind fun s => ?_
  cases s.recordingDeadline with
  | none => exact keeps_pure _
  | some deadline => exact (keeps_observe h _).bind fun _ => keeps_pure _

theorem triple_callWriter {P Q E : Session ω → Prop} (h : Blind P) {call : RecorderCall}
    (hok : ∀ s, P s → Q { s with calls := s.calls ++ [⟨call, .ok (), s.collectors⟩] })
    (herror : ∀ s error, P s → E { s with calls := s.calls ++ [⟨call, .error error, s.collectors⟩] }) :
    Triple P (callWriter world call) (fun _ => Q) E := by
  refine Triple.bind (Q := fun _ => P) (fun s hs => h s _ hs) fun result => ?_
  cases result with
  | ok _ => exact fun s hs => hok s hs
  | error error => exact fun s hs => herror s error hs

theorem keeps_orExited (h : Blind Inv) (hexited : ∀ s, Inv s → Inv { s with targetExited := true })
    {attempt : Recording ω Unit} (hattempt : Keeps Inv attempt) : Keeps Inv (orExited world attempt) := by
  refine (hattempt.bind fun _ => keeps_pure true).tryCatch fun error => ?_
  refine keeps_get.bind fun s => (keeps_ask world h _).bind fun exited => ?_
  exact ((keeps_modify hexited).bind fun _ => keeps_pure false).ite (keeps_throw error)

theorem triple_askOrExited {E : Session ω → Prop} (h : Blind Inv)
    (hexited : ∀ s, Inv s → Inv { s with targetExited := true }) (hE : ∀ s, Inv s → E s) (request : Request δ α)
    {next : α → Recording ω Bool} (hnext : ∀ a, Triple Inv (next a) (fun _ => Inv) E) :
    Triple Inv (askOrExited world request next) (fun _ => Inv) E := by
  refine Triple.bind (Q := fun _ => Inv) (fun s hs => h s _ hs) fun result => ?_
  cases result with
  | ok a => exact hnext a
  | error message => exact (keeps_orExited world h hexited (keeps_bail message)).fails hE

end

/-! ## A turn of the window's loop -/

section
variable {F δ ω : Type} {float : RatioF64 F} {args : Args} {identity : LogicalIdentity} {submissions : List Submission}
  {process : ℤ} (world : RecorderWorld F δ ω)

theorem InWindow.blind : Blind (InWindow float args identity submissions process (ω := ω)) :=
  fun _ _ h => { h with }

theorem InWindow.targetExited (s : Session ω) (h : InWindow float args identity submissions process s) :
    InWindow float args identity submissions process { s with targetExited := true } := { h with }

theorem accepted_snoc {calls : List Called} (h : ∀ called ∈ calls, called.result = .ok ()) (call : RecorderCall)
    (collectors : Collectors) : ∀ called ∈ calls ++ [⟨call, .ok (), collectors⟩], called.result = .ok () := by
  intro called hcalled
  rcases List.mem_append.mp hcalled with hbefore | hnew
  · exact h called hbefore
  · rw [List.mem_singleton.mp hnew]

/-- A call that is not accepted leaves the windows. -/
theorem Counted.rejected {s : Session ω} (h : Counted float args identity submissions s) (call : RecorderCall)
    (error : String) :
    Logged float args identity { s with calls := s.calls ++ [⟨call, .error error, s.collectors⟩] } := by
  unfold Logged
  have hsame : recorded s.firstSymbolizer (s.calls ++ [⟨call, .error error, s.collectors⟩]) = submissions :=
    (recorded_snoc fun _ => by cases call <;> rfl).trans h.windows
  rw [hsame]
  exact h.coherent

theorem Counted.logged {s : Session ω} (h : Counted float args identity submissions s) :
    Logged float args identity s := by
  unfold Logged
  rw [h.windows]
  exact h.coherent

theorem Counted.ended {s : Session ω} (h : Counted float args identity submissions s) : Ended float args identity s :=
  ⟨h.logged, h.accepted⟩

theorem InWindow.logged (s : Session ω) (h : InWindow float args identity submissions process s) :
    Logged float args identity s := h.toCounted.logged

theorem checkCompleted_inWindow :
    Triple (InWindow float args identity submissions process) (callWriter world .checkCompleted)
      (fun _ => InWindow float args identity submissions process) (Logged float args identity) := by
  refine triple_callWriter world InWindow.blind (fun s h => ?_) fun s error h => h.toCounted.rejected _ error
  refine { h with
    windows := (recorded_snoc fun _ => rfl).trans h.windows
    accepted := accepted_snoc h.accepted _ _
    symbolizer := ?_ }
  rw [lastSymbolizer_append]
  exact h.symbolizer

theorem checkTarget_inWindow : Triple (InWindow float args identity submissions process) (checkTarget world)
    (fun _ => InWindow float args identity submissions process) (Logged float args identity) := by
  refine (checkCompleted_inWindow world).bind fun _ => Keeps.fails ?_ InWindow.logged
  refine keeps_get.bind fun s => ?_
  refine (keeps_ask world InWindow.blind _).bind fun exited => Keeps.ite ?_ (keeps_pure true)
  refine (keeps_modify InWindow.targetExited).bind fun _ => Keeps.bind ?_ fun _ => keeps_pure false
  refine keeps_modify fun s h => { h with next := fun last hlast => ?_, exec := fun hexec => ?_ }
  · obtain ⟨warnings, hwarnings, hboundary⟩ := h.next last hlast
    exact ⟨warnings, hwarnings.trans (List.prefix_append _ _), hboundary⟩
  · exact List.mem_append_left _ (h.exec hexec)

theorem keeps_windowOpen : Keeps (InWindow float args identity submissions process) (windowOpen world) := by
  refine keeps_get.bind fun s => (keeps_observe InWindow.blind _).bind fun now => Keeps.ite ?_ (keeps_pure false)
  exact (keeps_observe InWindow.blind _).bind fun _ => keeps_pure _

theorem keeps_endAtExec : Keeps (InWindow float args identity submissions process) (endAtExec : Recording ω Bool) := by
  refine Keeps.bind (keeps_modify fun s h => ?_) fun _ => keeps_pure false
  refine { h with next := fun last hlast => ?_, exec := fun _ => List.mem_append_right _ (List.mem_singleton_self _) }
  obtain ⟨warnings, hwarnings, hboundary⟩ := h.next last hlast
  exact ⟨warnings, hwarnings.trans (List.prefix_append _ _), hboundary⟩

theorem keeps_reconcileCollectors :
    Keeps (InWindow float args identity submissions process) (reconcileCollectors world) :=
  keeps_get.bind fun _ => (keeps_ask world InWindow.blind _).ite (keeps_pure _)

theorem keeps_watchLifecycle : Keeps (InWindow float args identity submissions process) (watchLifecycle world) := by
  refine (keeps_ask world InWindow.blind _).bind fun events => keeps_endAtExec.ite (Keeps.ite ?_ (keeps_pure true))
  exact keeps_orExited world InWindow.blind InWindow.targetExited (keeps_reconcileCollectors world)

theorem keeps_ingestCalls : ∀ calls : List (IngestCall δ),
    Keeps (InWindow float args identity submissions process) (ingestCalls world calls)
  | [] => keeps_pure ()
  | call :: calls => by
    refine Keeps.get_bind fun s hs => ?_
    refine Keeps.bind (fun _ _ => { hs with ingested := hs.ingested.call world.comm s.outside call }) fun _ => ?_
    cases (ingestCpuBatch world.comm s.window.cpuWindow s.outside call).2.2 with
    | none => exact keeps_ingestCalls calls
    | some message => exact keeps_bail message

theorem keeps_ingest (request : Request δ (Ingestion δ)) :
    Keeps (InWindow float args identity submissions process) (ingest world request) := by
  refine (keeps_ask world InWindow.blind _).bind fun ingestion => (keeps_ingestCalls world _).bind fun _ => ?_
  cases ingestion.error with
  | none => exact keeps_pure ()
  | some message => exact keeps_bail message

theorem keeps_collect : Keeps (InWindow float args identity submissions process) (collect world) := by
  refine keeps_get.bind fun s => Keeps.when (keeps_ingest world _) fun _ => ?_
  refine Keeps.when (keeps_ask world InWindow.blind _) fun _ => ?_
  exact Keeps.when (keeps_ask world InWindow.blind _) fun _ => keeps_pure true

theorem keeps_refreshSymbolizer (maps : List MapLine) :
    Keeps (InWindow float args identity submissions process) (refreshSymbolizer world maps) := by
  refine keeps_get.bind fun s => Keeps.when (keeps_ask world InWindow.blind _) fun _ => ?_
  exact Keeps.when (keeps_ask world InWindow.blind _) fun _ => keeps_ask world InWindow.blind _

theorem replaceSymbolizer_inWindow (maps : List MapLine) :
    Triple (InWindow float args identity submissions process) (callWriter world (.replaceSymbolizer ⟨process, maps⟩))
      (fun _ => InWindow float args identity submissions process) (Logged float args identity) := by
  refine triple_callWriter world InWindow.blind (fun s h => ?_) fun s error h => h.toCounted.rejected _ error
  refine { h with
    windows := (recorded_snoc fun _ => rfl).trans h.windows
    accepted := accepted_snoc h.accepted _ _
    symbolizer := ?_ }
  rw [lastSymbolizer_append]
  rfl

theorem refreshMaps_inWindow (maps : List MapLine) :
    Triple (InWindow float args identity submissions process) (refreshMaps world maps)
      (fun _ => InWindow float args identity submissions process) (Logged float args identity) := by
  refine Triple.get_bind fun s hs => Triple.ite (fun _ => triple_pure fun _ h => h) fun _ => ?_
  refine Triple.bind (Q := fun _ => InWindow float args identity submissions process) (fun _ _ => { hs with })
    fun _ => Triple.ite (fun _ => ?_) fun _ => triple_pure fun _ h => h
  refine ((keeps_orExited world InWindow.blind InWindow.targetExited (keeps_refreshSymbolizer world maps)).fails
    InWindow.logged).andThen ?_
  rw [hs.pid]
  exact (replaceSymbolizer_inWindow world maps).bind fun _ => triple_pure fun _ h => h

theorem reconcile_inWindow : Triple (InWindow float args identity submissions process) (reconcile world)
    (fun _ => InWindow float args identity submissions process) (Logged float args identity) := by
  refine Triple.get_bind fun s _ => ((keeps_observe InWindow.blind _).fails InWindow.logged).bind fun now => ?_
  refine Triple.ite (fun _ => triple_pure fun _ h => h) fun _ => ?_
  refine ((keeps_observe InWindow.blind _).fails InWindow.logged).bind fun later => ?_
  refine Triple.bind (Q := fun _ => InWindow float args identity submissions process)
    (triple_modify fun s h => { h with }) fun _ => ?_
  refine triple_askOrExited world InWindow.blind InWindow.targetExited InWindow.logged _ fun found => ?_
  refine Triple.ite (fun _ => keeps_endAtExec.fails InWindow.logged) fun _ => ?_
  refine ((keeps_orExited world InWindow.blind InWindow.targetExited (keeps_reconcileCollectors world)).fails
    InWindow.logged).andThen ?_
  exact triple_askOrExited world InWindow.blind InWindow.targetExited InWindow.logged _ fun maps =>
    refreshMaps_inWindow world maps

theorem pollRound_inWindow : Triple (InWindow float args identity submissions process) (pollRound world)
    (fun _ => InWindow float args identity submissions process) (Logged float args identity) := by
  refine ((keeps_windowOpen world).fails InWindow.logged).andThen ?_
  refine (checkTarget_inWindow world).andThen ?_
  refine ((keeps_watchLifecycle world).fails InWindow.logged).andThen ?_
  exact ((keeps_collect world).fails InWindow.logged).andThen (reconcile_inWindow world)

theorem pollRounds_inWindow (limit : ℕ) :
    Triple (InWindow float args identity submissions process) (turns .unfinished (pollRound world) limit)
      (fun _ => InWindow float args identity submissions process) (Logged float args identity) :=
  Triple.turns ((pollRound_inWindow world).post fun goesOn _ h => by cases goesOn <;> exact h) InWindow.logged limit

end

/-! ## Choosing the unwind mode -/

theorem denotes_refreshed {identity : LogicalIdentity} {target : ResolvedMetadata}
    (h : identity.Denotes target) {pid : ℤ} (hpid : target.pid = pid) (ticks : ℕ) :
    identity.Denotes { target with pid := pid, processStartTimeTicks := ticks } := by
  cases identity with
  | process _ _ => exact hpid.symm.trans h
  | docker _ => exact h
  | kubernetes _ _ _ _ => exact h

section
variable {ω : Type} {Inv : Session ω → Prop}

theorem keeps_requireNativeArchitecture (args : Args) (architecture : String) :
    Keeps Inv (requireNativeArchitecture args architecture : Recording ω Unit) :=
  (keeps_bail _).ite (keeps_pure ())

theorem keeps_requireRecordable (after : String) : Keeps Inv (requireRecordable after : Recording ω Unit) :=
  keeps_get.bind fun _ => (keeps_bail _).ite (keeps_pure _)

end

section
variable {F δ ω : Type} {float : RatioF64 F} {args : Args} {identity : LogicalIdentity} {submissions : List Submission}
  {process : ℤ} (world : RecorderWorld F δ ω)

theorem Placed.blind : Blind (Placed float args identity submissions process (ω := ω)) := fun _ _ h => { h with }

theorem keeps_inspectTarget {target : ResolvedMetadata} (hpid : target.pid = process) (h : identity.Denotes target) :
    Keeps (Placed float args identity submissions process) (inspectTarget world target) := by
  refine keeps_get.bind fun s => (keeps_ask world Placed.blind _).bind fun found => ?_
  exact keeps_modify fun s hs => { hs with target := hpid, denotes := h }

theorem keeps_refreshPreflightAfterExec :
    Keeps (Placed float args identity submissions process) (refreshPreflightAfterExec world args) := by
  refine Keeps.get_bind fun s hs => (keeps_ask world Placed.blind _).bind fun ticks => ?_
  have hdenotes := denotes_refreshed hs.denotes (hs.target.trans hs.pid.symm) ticks
  refine (keeps_inspectTarget world hs.pid hdenotes).bind fun _ => ?_
  exact (keeps_requireRecordable _).bind fun _ => keeps_get.bind fun _ => keeps_requireNativeArchitecture args _

theorem keeps_setCalibration (f : Calibration → Calibration) :
    Keeps (Placed float args identity submissions process) (setCalibration f : Recording ω Unit) :=
  keeps_modify fun _ h => { h with }

theorem keeps_restartCalibration :
    Keeps (Placed float args identity submissions process) (restartCalibration world args) :=
  (keeps_refreshPreflightAfterExec world).bind fun _ => (keeps_setCalibration _).bind fun _ => keeps_pure false

theorem keeps_startCalibration : Keeps (Placed float args identity submissions process) (startCalibration world) := by
  refine keeps_get.bind fun s => (keeps_ask world Placed.blind _).bind fun maps => ?_
  refine (keeps_ask world Placed.blind _).bind fun found => (keeps_ask world Placed.blind _).bind fun _ => ?_
  refine (keeps_ask world Placed.blind _).bind fun bpf => keeps_get.bind fun _ => (keeps_ofExcept _).bind fun _ => ?_
  refine (keeps_observe Placed.blind _).bind fun started => (keeps_observe Placed.blind _).bind fun later => ?_
  exact keeps_setCalibration _

theorem keeps_calibrationRound :
    Keeps (Placed float args identity submissions process) (calibrationRound world args) := by
  refine Keeps.andThen ?_ (Keeps.andThen ?_ (Keeps.andThen ?_ ?_))
  · refine keeps_get.bind fun s => (keeps_observe Placed.blind _).bind fun now => Keeps.ite ?_ (keeps_pure false)
    exact (keeps_observe Placed.blind _).bind fun _ => keeps_pure _
  · refine keeps_get.bind fun s => (keeps_ask world Placed.blind _).bind fun exited => ?_
    refine Keeps.when (keeps_bail _) fun _ => (keeps_ask world Placed.blind _).bind fun events => ?_
    refine (keeps_restartCalibration world).ite ?_
    exact Keeps.when (keeps_ask world Placed.blind _) fun _ => keeps_pure true
  · exact (keeps_ask world Placed.blind _).bind fun _ => (keeps_setCalibration _).bind fun _ => keeps_pure true
  · refine keeps_get.bind fun s => (keeps_observe Placed.blind _).bind fun now => (keeps_pure true).ite ?_
    refine (keeps_ask world Placed.blind _).bind fun _ => (keeps_ask world Placed.blind _).bind fun found => ?_
    refine (keeps_restartCalibration world).ite ((keeps_observe Placed.blind _).bind fun later => ?_)
    exact (keeps_setCalibration _).bind fun _ => keeps_pure true

theorem setMode_chosen {mode : UnwindMode} {reason : Option String} (h : ModeFits args mode reason) :
    Triple (Placed float args identity submissions process) (setMode mode reason : Recording ω Unit)
      (fun _ => Chosen float args identity submissions process) (Placed float args identity submissions process) :=
  triple_modify fun _ hs => { hs with mode := h }

/-- The verdict fits only a mode that was left open. -/
theorem concludeCalibration_chosen (hauto : args.unwind = .auto) :
    Triple (Placed float args identity submissions process) (concludeCalibration world args)
      (fun _ => Chosen float args identity submissions process) (Placed float args identity submissions process) := by
  refine Triple.bind (keeps_observe Placed.blind _) fun stopped => Triple.require (fun _ => ?_) fun _ => id
  refine Triple.bind keeps_get fun s => Triple.ite (fun _ => setMode_chosen ?_) fun _ => ?_
  · unfold ModeFits
    rw [hauto]
    exact Or.inl rfl
  · refine Triple.require (fun _ => setMode_chosen ?_) fun _ => id
    unfold ModeFits
    rw [hauto]
    exact Or.inr ⟨rfl, rfl⟩

theorem selectUnwindMode_chosen (limit : ℕ) :
    Triple (Placed float args identity submissions process) (selectUnwindMode world args limit)
      (fun _ => Chosen float args identity submissions process) (Placed float args identity submissions process) := by
  unfold selectUnwindMode
  cases hrequested : args.unwind with
  | fp => exact setMode_chosen (by unfold ModeFits; rw [hrequested]; exact ⟨rfl, rfl⟩)
  | dwarf => exact setMode_chosen (by unfold ModeFits; rw [hrequested]; exact ⟨rfl, rfl⟩)
  | auto =>
    refine Triple.turns (Triple.bind (keeps_startCalibration world) fun _ => ?_) (fun _ => id) limit
    refine Triple.bind (Keeps.turns (keeps_calibrationRound world) limit) fun _ => Triple.bind keeps_get fun s => ?_
    refine Triple.ite (fun _ => triple_pure fun _ h => h) fun _ => ?_
    exact (concludeCalibration_chosen world hrequested).bind fun _ => triple_pure fun _ h => h

/-- A launched target starts with frame pointers. -/
theorem launch_chosen (limit : ℕ) (reason : String) :
    Triple (Placed float args identity submissions process)
      (if args.launchAuto then setMode .fp (some reason) else selectUnwindMode world args limit)
      (fun _ => Chosen float args identity submissions process) (Placed float args identity submissions process) := by
  refine Triple.ite (fun hlaunch => setMode_chosen ?_) fun _ => selectUnwindMode_chosen world limit
  have hauto : args.unwind = .auto := of_decide_eq_true (Bool.and_eq_true_iff.mp hlaunch).2
  unfold ModeFits
  rw [hauto]
  exact Or.inl rfl

end

/-! ## Attaching -/

section
variable {F δ ω : Type} {Inv : Session ω → Prop} (world : RecorderWorld F δ ω) (args : Args)

theorem keeps_attachHeap (h : Blind Inv) (preflight : CheckReport) (mode : UnwindMode) :
    Keeps Inv (attachHeap world args preflight mode) := by
  refine keeps_get.bind fun s => (keeps_pure _).ite (Keeps.ite ?_ ((keeps_pure _).ite (keeps_bail _)))
  refine ((keeps_ask world h _).bind fun _ => keeps_pure _).tryCatch fun error => ?_
  cases error with
  | failed message => exact (keeps_pure _).ite (keeps_bail _)
  | kernel error => exact keeps_throw _
  | target error => exact keeps_throw _
  | unfinished => exact keeps_throw _

theorem keeps_attachOffCpu (h : Blind Inv) (cgroup : Option String) : Keeps Inv (attachOffCpu world args cgroup) := by
  refine keeps_get.bind fun s => (keeps_pure _).ite ?_
  refine ((keeps_ask world h _).bind fun _ => keeps_pure _).tryCatch fun error => ?_
  cases error with
  | failed message => exact (keeps_pure _).ite (keeps_bail _)
  | kernel error => exact keeps_throw _
  | target error => exact keeps_throw _
  | unfinished => exact keeps_throw _

theorem keeps_readIdentityAndMaps (h : Blind Inv)
    (hread : ∀ s found maps, Inv s → Inv { s with exeIdentity := found, maps := maps }) :
    Keeps Inv (readIdentityAndMaps world) := by
  refine keeps_get.bind fun s => (keeps_ask world h _).bind fun found => (keeps_ask world h _).bind fun maps => ?_
  exact keeps_modify fun s hs => hread s found maps hs

end

section
variable {F δ ω : Type} {float : RatioF64 F} {args : Args} {identity : LogicalIdentity} {submissions : List Submission}
  {process : ℤ} (world : RecorderWorld F δ ω)

/-- What is attached next, which attaching does not change. -/
structure Plan where
  target : ResolvedMetadata
  mode : UnwindMode
  reason : Option String

def Session.plan (s : Session ω) : Plan := ⟨s.preflight.target, s.selectedMode, s.fallbackReason⟩

variable {plan : Plan}

theorem blind_planned : Blind fun s : Session ω =>
    Symbolized float args identity submissions process s ∧ s.plan = plan := fun _ _ h => ⟨{ h.1 with }, h.2⟩

theorem startCollectors_steady :
    Triple (fun s => Symbolized float args identity submissions process s ∧ s.plan = plan) (startCollectors world args)
      (fun _ s => Steady float args identity submissions process s ∧ s.plan = plan)
      (Placed float args identity submissions process) := by
  have hblind : Blind fun s : Session ω => Symbolized float args identity submissions process s ∧ s.plan = plan :=
    blind_planned
  refine Triple.conseq (E := fun s => Symbolized float args identity submissions process s ∧ s.plan = plan) ?_
    (fun _ => id) (fun _ _ => id) fun _ h => h.1.toPlaced
  refine Triple.get_bind fun session hsession => Triple.require (fun _ => ?_) fun _ => id
  refine Triple.bind (keeps_ask world hblind _) fun bpf => Triple.bind (keeps_ofExcept _) fun lifecycle => ?_
  refine Triple.when (keeps_ask world hblind _) fun _ => ?_
  refine Triple.bind (keeps_attachHeap world args hblind _ _) fun heap => ?_
  refine Triple.bind (keeps_attachOffCpu world args hblind _) fun offCpu => ?_
  refine Triple.require (fun _ => triple_modify fun s h => ?_) fun _ => id
  have hmode : session.selectedMode = s.selectedMode := congrArg Plan.mode (hsession.2.trans h.2.symm)
  exact ⟨{ h.1 with collectors := hsession.1.pid, collectedMode := hmode }, h.2⟩

theorem replaceSymbolizer_symbolized {symbolizer : ProcessSymbolizer} (hpid : symbolizer.pid = process) :
    Triple (Chosen float args identity submissions process) (callWriter world (.replaceSymbolizer symbolizer))
      (fun _ => Symbolized float args identity submissions process) (Logged float args identity) := by
  refine triple_callWriter world (fun _ _ h => { h with }) (fun s h => ?_) fun s error h => h.toCounted.rejected _ error
  refine { h with
    windows := (recorded_snoc fun _ => rfl).trans h.windows
    accepted := accepted_snoc h.accepted _ _
    symbolizer := ?_ }
  rw [lastSymbolizer_append]
  exact hpid

theorem symbolizerForProcess_chosen :
    Triple (Chosen float args identity submissions process) (symbolizerForProcess world)
      (fun symbolizer s => Chosen float args identity submissions process s ∧ symbolizer.pid = process)
      (Chosen float args identity submissions process) := by
  have hblind : Blind (Chosen float args identity submissions process (ω := ω)) := fun _ _ h => { h with }
  refine Triple.get_bind fun session hsession => ?_
  refine Triple.bind (keeps_ask world hblind _) fun maps => Triple.bind (keeps_ask world hblind _) fun _ => ?_
  exact triple_pure fun s h => ⟨h, hsession.pid⟩

theorem attachAgain_steady (limit : ℕ) :
    Triple (Placed float args identity submissions process) (attachAgain world args limit)
      (fun _ => Steady float args identity submissions process) (Logged float args identity) := by
  refine ((launch_chosen world limit _).fails fun _ h => h.logged).bind fun _ => ?_
  refine ((symbolizerForProcess_chosen world).fails fun _ h => h.toCounted.logged).bind fun symbolizer => ?_
  refine Triple.assume fun hpid => (replaceSymbolizer_symbolized world hpid).bind fun _ => ?_
  refine Triple.ghost Session.plan fun plan => ?_
  exact ((startCollectors_steady world).post fun _ _ h => h.1).fails fun _ h => h.logged

end

/-! ## A window -/

section
variable {F δ ω : Type} {float : RatioF64 F} {args : Args} {identity : LogicalIdentity} {submissions : List Submission}
  {process : ℤ} (world : RecorderWorld F δ ω)

theorem openWindow_inWindow : Triple (Ready float args identity submissions process) (openWindow world args)
    (fun _ => InWindow float args identity submissions process) (Logged float args identity) := by
  have hblind : Blind (Ready float args identity submissions process (ω := ω)) := fun _ _ h => { h with }
  refine Triple.conseq (E := Ready float args identity submissions process) ?_ (fun _ => id) (fun _ _ => id)
    fun _ h => h.toCounted.logged
  refine Triple.bind (keeps_observe hblind _) fun startedAt => Triple.bind (keeps_ask world hblind _) fun clock => ?_
  refine Triple.bind (keeps_unixNanos world hblind) fun started => ?_
  cases checkedAdd startedAt args.window with
  | none => exact triple_throw fun _ => id
  | some naturalEnd =>
    refine Triple.bind (keeps_observe hblind _) fun lastReconcile => triple_modify fun s h => ?_
    refine { h with
      taken := rfl
      next := fun last hlast => ⟨s.collectors.warnings, List.prefix_refl _, h.next last hlast⟩
      ingested := ?_
      exec := fun hexec => absurd hexec Bool.false_ne_true }
    rw [← h.pid]
    exact Ingests.fresh

/-- The window is submitted; what follows it depends on how it ended. -/
structure Closed (float : RatioF64 F) (args : Args) (identity : LogicalIdentity) (submissions : List Submission)
    (process : ℤ) (last : RecordedWindow) (lowRatio : Option F) (s : Session ω) : Prop
    extends Steady float args identity submissions process s where
  isLast : submissions.getLast?.map (·.window) = some last
  taken : s.collectors.warnings = []
  lastPid : last.pid = process
  lastTarget : s.preflight.target = last.target
  lastMode : s.selectedMode = last.selectedMode
  lastReason : s.fallbackReason = last.fallbackReason
  lastHeap : s.collectors.heap = last.heapProfile.isSome
  exec : s.window.execDetected = true → execMessage ∈ last.warnings
  low : ∀ ratio ∈ lowRatio, (args.unwind = .auto ∧ last.selectedMode = .fp) ∧
    float.lt ratio float.ninetyPercent = true ∧ ∃ heap, fpUsableRatio float last.cpuWindow heap = some ratio

theorem snapshotHeap_isSome : Triple (InWindow float args identity submissions process) (snapshotHeap world)
    (fun heap s => InWindow float args identity submissions process s ∧ heap.isSome = s.collectors.heap)
    (InWindow float args identity submissions process) := by
  refine Triple.ghost (fun s => s.collectors.heap) fun heap => ?_
  have hblind : Blind fun s : Session ω =>
      InWindow float args identity submissions process s ∧ s.collectors.heap = heap := fun _ _ h => ⟨{ h.1 with }, h.2⟩
  refine Triple.conseq (E := fun s => InWindow float args identity submissions process s ∧ s.collectors.heap = heap) ?_
    (fun _ => id) (fun _ _ => id) fun _ h => h.1
  refine Triple.get_bind fun session hsession => Triple.ite (fun hheap => ?_) fun hheap => ?_
  · refine Triple.bind (keeps_ask world hblind _) fun found => triple_pure fun s h => ⟨h.1, ?_⟩
    exact (hheap.symm.trans hsession.2).trans h.2.symm
  · refine triple_pure fun s h => ⟨h.1, ?_⟩
    exact ((Bool.eq_false_iff.mpr hheap).symm.trans hsession.2).trans h.2.symm

theorem Follows.of_inWindow {s : Session ω} (h : InWindow float args identity submissions process s)
    {heap : Option (Table Stack HeapValues × HeapWindowDiagnostics)} (hheap : heap.isSome = s.collectors.heap)
    (offCpu : Option (Table AttributedStack OffCpuValues × OffCpuWindowDiagnostics)) (ended : ℤ) {last : Submission}
    (hlast : last ∈ submissions.getLast?) :
    Follows float args last.window (recordedWindow args s heap offCpu ended) := by
  obtain ⟨warnings, hwarnings, hboundary⟩ := h.next last hlast
  refine ⟨warnings, hwarnings.trans (List.prefix_append _ _), ?_⟩
  have hheader : ({ s.header with warnings := warnings } : Header) =
      ⟨s.pid, s.preflight.target, s.selectedMode, s.fallbackReason, (heap.map Prod.fst).isSome, warnings⟩ := by
    rw [Option.isSome_map, hheap]
    rfl
  exact hheader ▸ hboundary

/-- The next window is coherent with those before. -/
theorem Coherent.snoc {s : Session ω} (h : InWindow float args identity submissions process s)
    {heap : Option (Table Stack HeapValues × HeapWindowDiagnostics)} (hheap : heap.isSome = s.collectors.heap)
    (offCpu : Option (Table AttributedStack OffCpuValues × OffCpuWindowDiagnostics)) (ended : ℤ) :
    Coherent float args identity s.sessionId (submissions ++
      [⟨recordedWindow args s heap offCpu ended, lastSymbolizer s.firstSymbolizer s.calls, s.collectors⟩]) := by
  refine ⟨?_, fun submission hsubmission => ?_, ?_⟩
  · rw [List.map_append, List.length_append, h.coherent.numbered, List.length_singleton, List.range_succ, h.count]
    rfl
  · rcases List.mem_append.mp hsubmission with hbefore | hnew
    · exact h.coherent.fits submission hbefore
    · rw [List.mem_singleton] at hnew
      subst hnew
      exact
        { session := rfl
          symbolizer := h.symbolizer.trans h.pid.symm
          collectors := h.collectors.trans h.pid.symm
          collectedMode := h.collectedMode
          target := h.target.trans h.pid.symm
          identity := h.denotes
          requested := rfl
          mode := h.mode
          ingested := by
            have hingested := h.ingested
            rw [← h.pid] at hingested
            exact hingested }
  · rw [List.map_append]
    refine h.coherent.follows.append (List.isChain_singleton _) fun last hlast next hnext => ?_
    rw [List.getLast?_map] at hlast
    obtain ⟨submission, hsubmission, rfl⟩ := Option.map_eq_some_iff.mp hlast
    obtain rfl := Option.some.inj hnext
    exact Follows.of_inWindow h hheap offCpu ended hsubmission

theorem closed_submitted {s : Session ω} (h : InWindow float args identity submissions process s)
    {heap : Option (Table Stack HeapValues × HeapWindowDiagnostics)} (hheap : heap.isSome = s.collectors.heap)
    (offCpu : Option (Table AttributedStack OffCpuValues × OffCpuWindowDiagnostics)) (ended : ℤ) (result : Unit) :
    let window := recordedWindow args s heap offCpu ended
    let ratio := fpUsableRatio float s.window.cpuWindow (heap.map Prod.snd)
    Closed float args identity
      (submissions ++ [⟨window, lastSymbolizer s.firstSymbolizer s.calls, s.collectors⟩]) process window
      (if lowFpQuality args float s.selectedMode ratio then ratio else none)
      { s with
        calls := s.calls ++ [⟨.submit window, .ok result, s.collectors⟩]
        windowIndex := s.windowIndex + 1 } := by
  intro window ratio
  refine
    { h.toSteady with
      coherent := Coherent.snoc h hheap offCpu ended
      windows := ?_
      count := ?_
      accepted := accepted_snoc h.accepted _ _
      symbolizer := ?_
      isLast := ?_
      taken := h.taken
      lastPid := h.pid
      lastTarget := rfl
      lastMode := rfl
      lastReason := rfl
      lastHeap := ?_
      exec := fun hexec => List.mem_append_left _ (h.exec hexec)
      low := fun r hr => ?_ }
  · rw [recorded_append, h.windows]
    rfl
  · rw [List.length_append, h.count]
    rfl
  · rw [lastSymbolizer_append]
    exact h.symbolizer
  · rw [List.getLast?_concat]
    rfl
  · exact hheap.symm.trans Option.isSome_map.symm
  · by_cases hlow : lowFpQuality args float s.selectedMode ratio = true
    · rw [if_pos hlow] at hr
      unfold lowFpQuality at hlow
      rw [hr, Bool.and_eq_true, Bool.and_eq_true, decide_eq_true_eq] at hlow
      exact ⟨⟨hlow.1.1, of_decide_eq_true hlow.1.2⟩, hlow.2, heap.map Prod.snd, hr⟩
    · rw [if_neg hlow] at hr
      cases hr

/-- The window is submitted, and counted if it is accepted. -/
theorem submit_closed {session : Session ω} (h : InWindow float args identity submissions process session)
    {heap : Option (Table Stack HeapValues × HeapWindowDiagnostics)} (hheap : heap.isSome = session.collectors.heap)
    (offCpu : Option (Table AttributedStack OffCpuValues × OffCpuWindowDiagnostics)) (ended : ℤ) :
    let ratio := fpUsableRatio float session.window.cpuWindow (heap.map Prod.snd)
    let lowRatio := if lowFpQuality args float session.selectedMode ratio then ratio else none
    Triple (fun s => s = session)
      (do
        callWriter world (.submit (recordedWindow args session heap offCpu ended))
        modify fun session => { session with windowIndex := session.windowIndex + 1 }
        return lowRatio)
      (fun lowRatio s => ∃ submissions last, Closed float args identity submissions process last lowRatio s)
      (Logged float args identity) := by
  intro ratio lowRatio
  refine Triple.pre (P := fun s => ∃ outside, s = { session with outside := outside }) ?_
    fun s hs => ⟨s.outside, by rw [hs]⟩
  refine Triple.bind (Q := fun _ s => ∃ submissions last,
    Closed float args identity submissions process last lowRatio { s with windowIndex := s.windowIndex + 1 }) ?_
    fun _ => Triple.bind (triple_modify fun _ hs => hs) fun _ => triple_pure fun _ hs => hs
  refine triple_callWriter world (fun s outside hs => ?_) (fun s hs => ?_) fun s error hs => ?_
  · obtain ⟨before, rfl⟩ := hs
    exact ⟨outside, rfl⟩
  · obtain ⟨outside, rfl⟩ := hs
    have hclosed := closed_submitted h hheap offCpu ended ()
    exact ⟨_, _, { hclosed with }⟩
  · obtain ⟨outside, rfl⟩ := hs
    exact (InWindow.blind session outside h).toCounted.rejected _ error

theorem closeWindow_closed : Triple (InWindow world.float args identity submissions process) (closeWindow world args)
    (fun lowRatio s => ∃ submissions last, Closed world.float args identity submissions process last lowRatio s)
    (Logged world.float args identity) := by
  have hlogged : ∀ s : Session ω, InWindow world.float args identity submissions process s →
      Logged world.float args identity s := fun s h => h.toCounted.logged
  have hend {α : Type} {x : Recording ω α} {Q : α → Session ω → Prop}
      (h : Triple (InWindow world.float args identity submissions process) x Q
        (InWindow world.float args identity submissions process)) :
      Triple (InWindow world.float args identity submissions process) x Q (Logged world.float args identity) :=
    h.fails hlogged
  refine Triple.get_bind fun _ _ => Triple.when (hend (keeps_ingest world _)) fun _ => ?_
  refine (hend (snapshotHeap_isSome world)).bind fun heap => ?_
  have hblind : Blind fun s : Session ω =>
      InWindow world.float args identity submissions process s ∧ heap.isSome = s.collectors.heap :=
    fun _ _ h => ⟨{ h.1 with }, h.2⟩
  have hend' {α : Type} {x : Recording ω α} (h : Keeps (fun s : Session ω =>
      InWindow world.float args identity submissions process s ∧ heap.isSome = s.collectors.heap) x) :
      Triple _ x _ (Logged world.float args identity) := h.fails fun s hs => hlogged s hs.1
  refine Triple.bind (hend' (keeps_get.bind fun _ => Keeps.ite
    ((keeps_ask world hblind _).bind fun _ => keeps_pure _) (keeps_pure _))) fun offCpu => ?_
  refine Triple.bind (hend' (keeps_unixNanos world hblind)) fun ended => ?_
  intro session h
  exact submit_closed world h.1 h.2 offCpu ended session rfl

end

/-! ## The target of a restart -/

theorem dockerTarget_pid {world : TargetWorld} {found : DockerInspect} {target : ResolvedTarget}
    (h : world.dockerTarget found = .ok (some target)) : target.metadata.pid = target.pid := by
  unfold TargetWorld.dockerTarget at h
  split at h
  · cases h
  · obtain ⟨ticks, -, htarget⟩ := Except.bind_eq_ok.mp h
    cases htarget
    rfl

theorem kubernetesTarget_pid {world : TargetWorld} {podNamespace podName container : String} {pod : Pod}
    {target : ResolvedTarget} (h : world.kubernetesTarget podNamespace podName pod container = .ok (some target)) :
    target.metadata.pid = target.pid := by
  unfold TargetWorld.kubernetesTarget at h
  split at h
  · cases h
  dsimp only at h
  split at h
  · cases h
  split at h
  · cases h
  split at h
  · cases h
  split at h
  · cases h
  obtain ⟨found, -, hfound⟩ := Except.bind_eq_ok.mp h
  cases found with
  | none => cases hfound
  | some pid =>
    obtain ⟨ticks, -, htarget⟩ := Except.bind_eq_ok.mp hfound
    cases htarget
    rfl

theorem denotes_of_matches {identity : LogicalIdentity} {target : ResolvedTarget} (h : identity.Matches target)
    (hpid : target.metadata.pid = target.pid) : identity.Denotes target.metadata := by
  cases identity with
  | process _ _ => exact hpid.trans h.1
  | docker _ => exact h
  | kubernetes _ _ _ _ => exact h

theorem resolveAgain_pid {world : TargetWorld} {identity : LogicalIdentity} {target : ResolvedTarget}
    (h : identity.resolveAgain world = .ok (.running target)) : target.metadata.pid = target.pid := by
  cases identity with
  | process pid ticks =>
    unfold LogicalIdentity.resolveAgain at h
    dsimp only at h
    cases htime : world.processStartTime pid with
    | error error =>
      rw [htime] at h
      cases h
    | ok current =>
      rw [htime] at h
      dsimp only at h
      split at h
      · cases h
        rfl
      · cases h
  | docker containerId =>
    obtain ⟨found, -, hfound⟩ := Except.bind_eq_ok.mp h
    cases found with
    | none => cases hfound
    | some report =>
      dsimp only at hfound
      split at hfound
      · cases hfound
      · exact dockerTarget_pid (resolutionOf_running hfound)
  | kubernetes podNamespace pod podUid container =>
    obtain ⟨found, -, hfound⟩ := Except.bind_eq_ok.mp h
    cases found with
    | none => cases hfound
    | some report =>
      dsimp only at hfound
      split at hfound
      · cases hfound
      · exact kubernetesTarget_pid (resolutionOf_running hfound)

theorem Resolved.refresh {identity : LogicalIdentity} {resolver : TargetResolver} (h : Resolved identity resolver)
    (world : TargetWorld) : Resolved identity (resolver.refresh world).2 := by
  unfold TargetResolver.refresh
  cases hresolved : resolver.identity.resolveAgain world with
  | error error => exact h
  | ok resolution =>
    cases resolution with
    | running target =>
      have hpid := resolveAgain_pid hresolved
      rw [h.same] at hresolved
      exact ⟨h.same, hpid, denotes_of_matches (LogicalIdentity.resolveAgain_running hresolved) hpid⟩
    | waiting => exact h
    | gone => exact h

theorem Resolved.wait {identity : LogicalIdentity} (previous : ResolvedMetadata) :
    ∀ (turns : List (Option TargetWorld)) {resolver : TargetResolver}, Resolved identity resolver →
      Resolved identity (TargetResolver.waitForRestartedTarget previous turns resolver).2 ∧
        ∀ target, (TargetResolver.waitForRestartedTarget previous turns resolver).1 = some (.ok (some target)) →
          target.metadata.pid = target.pid ∧ identity.Denotes target.metadata
  | [], _, h => ⟨h, fun _ htarget => by cases htarget⟩
  | none :: _, _, h => ⟨h, fun _ htarget => by cases htarget⟩
  | some world :: turns, resolver, h => by
    have hnext := h.refresh world
    rw [TargetResolver.waitForRestartedTarget]
    cases hrefresh : resolver.refresh world with
    | mk state next =>
      rw [hrefresh] at hnext
      cases state with
      | error error => exact ⟨hnext, fun _ htarget => by cases htarget⟩
      | ok state =>
        cases state with
        | waiting => exact Resolved.wait previous turns hnext
        | gone => exact ⟨hnext, fun _ htarget => by cases htarget⟩
        | running =>
          dsimp only
          split
          · refine ⟨hnext, fun target htarget => ?_⟩
            cases htarget
            exact ⟨hnext.pid, hnext.denotes⟩
          · exact Resolved.wait previous turns hnext

theorem selected_pid {world : TargetWorld} {selector : Selector} {identity : LogicalIdentity} {target : ResolvedTarget}
    (h : selector.resolveInitial world = .ok (identity, target)) : target.metadata.pid = target.pid := by
  cases selector with
  | process pid =>
    obtain ⟨ticks, -, h⟩ := Except.bind_eq_ok.mp h
    cases h
    rfl
  | docker reference =>
    obtain ⟨found, -, h⟩ := Except.bind_eq_ok.mp h
    obtain ⟨report, -, h⟩ := Except.bind_eq_ok.mp h
    obtain ⟨running, hrunning, h⟩ := Except.bind_eq_ok.mp h
    obtain ⟨resolved, hresolved, h⟩ := Except.bind_eq_ok.mp h
    cases h
    exact dockerTarget_pid (orError_ok_iff.mp hresolved ▸ hrunning)
  | kubernetes podNamespace pod container =>
    obtain ⟨found, -, h⟩ := Except.bind_eq_ok.mp h
    obtain ⟨report, -, h⟩ := Except.bind_eq_ok.mp h
    obtain ⟨container, -, h⟩ := Except.bind_eq_ok.mp h
    obtain ⟨running, hrunning, h⟩ := Except.bind_eq_ok.mp h
    obtain ⟨resolved, hresolved, h⟩ := Except.bind_eq_ok.mp h
    cases h
    exact kubernetesTarget_pid (orError_ok_iff.mp hresolved ▸ hrunning)

theorem resolved_initially {args : TargetArgs} {world : TargetWorld} {resolver : TargetResolver}
    (h : TargetResolver.resolveInitial args world = .ok resolver) : Resolved resolver.identity resolver := by
  unfold TargetResolver.resolveInitial at h
  obtain ⟨selector, -, h⟩ := Except.bind_eq_ok.mp h
  obtain ⟨⟨identity, last⟩, hresolved, h⟩ := Except.bind_eq_ok.mp h
  cases h
  have hpid := selected_pid hresolved
  exact ⟨rfl, hpid, denotes_of_matches (Selector.resolveInitial_matches hresolved) hpid⟩

/-! ## Between windows -/

section
variable {F δ ω : Type} {float : RatioF64 F} {args : Args} {identity : LogicalIdentity} {submissions : List Submission}
  {process : ℤ} (world : RecorderWorld F δ ω)

/-- A warning of the collectors is said in the next window. -/
theorem warn_steady (message : String) : Triple (Steady float args identity submissions process)
    (warn message : Recording ω Unit)
    (fun _ s => Steady float args identity submissions process s ∧ message ∈ s.collectors.warnings)
    (Logged float args identity) :=
  triple_modify fun _ h => ⟨{ h with }, List.mem_append_right _ (List.mem_singleton_self _)⟩

theorem readIdentityAndMaps_ready : Triple (Ready float args identity submissions process) (readIdentityAndMaps world)
    (fun _ => Ready float args identity submissions process) (Logged float args identity) :=
  (keeps_readIdentityAndMaps world (fun _ _ h => { h with }) fun _ _ _ h => { h with }).fails
    fun _ h => h.toCounted.logged

theorem followExec_ready (limit : ℕ)
    (hlast : ∀ last ∈ submissions.getLast?, last.window.pid = process ∧ execMessage ∈ last.window.warnings) :
    Triple (Placed float args identity submissions process) (followExec world args limit)
      (fun _ => Ready float args identity submissions process) (Logged float args identity) := by
  have hlogged : ∀ s : Session ω, Placed float args identity submissions process s → Logged float args identity s :=
    fun s h => h.toCounted.logged
  refine Triple.bind (Q := fun _ => Placed float args identity submissions process)
    (triple_modify fun _ h => { h with }) fun _ => ?_
  refine Triple.bind ((keeps_refreshPreflightAfterExec world).fails hlogged) fun _ => ?_
  refine (attachAgain_steady world limit).bind fun _ => ?_
  refine Triple.ghost (fun s => s.collectors.heap) fun heap => Triple.get_bind fun session hsession => ?_
  have hready : ∀ s : Session ω, Steady float args identity submissions process s →
      (s.collectors.heap = true → heapExecMessage ∈ s.collectors.warnings) →
        Ready float args identity submissions process s := fun s h hheap =>
    { h with next := fun last hmem =>
        Boundary.exec (h.pid.trans (hlast last hmem).1.symm) (hlast last hmem).2 hheap }
  refine Triple.ite (fun _ => ?_) fun hheap => ?_
  · refine Triple.bind ((warn_steady heapExecMessage).pre fun _ h => h.1) fun _ => ?_
    exact (readIdentityAndMaps_ready world).pre fun s h => hready s h.1 fun _ => h.2
  · exact (readIdentityAndMaps_ready world).pre fun s h => hready s h.1 fun htrue =>
      absurd (hsession.2.trans (h.2.symm.trans htrue)) hheap

theorem keeps_cgroupOf {Inv : Session ω → Prop} (h : Blind Inv) : Keeps Inv (cgroupOf world) := by
  refine keeps_get.bind fun s => ?_
  dsimp only
  cases s.resolver.identity with
  | process _ _ => exact keeps_pure _
  | docker _ => exact keeps_ask world h _
  | kubernetes _ _ _ _ => exact keeps_ask world h _

theorem inspectTarget_placed {target : ResolvedMetadata} (hpid : target.pid = process) (h : identity.Denotes target) :
    Triple (fun s => Counted float args identity submissions s ∧ s.pid = process) (inspectTarget world target)
      (fun _ => Placed float args identity submissions process) (Logged float args identity) := by
  have hblind : Blind fun s : Session ω => Counted float args identity submissions s ∧ s.pid = process :=
    fun _ _ h => ⟨{ h.1 with }, h.2⟩
  refine Triple.get_bind fun session _ => ?_
  refine Triple.bind ((keeps_ask world hblind _).fails fun _ h => h.1.logged) fun found => ?_
  exact triple_modify fun s hs => { hs.1 with pid := hs.2, target := hpid, denotes := h }

theorem restart_ready {resolved : ResolvedTarget} (hpid : resolved.metadata.pid = resolved.pid)
    (hdenotes : identity.Denotes resolved.metadata) (limit : ℕ) :
    Triple (Counted float args identity submissions) (restart world args resolved limit)
      (fun _ => Ready float args identity submissions resolved.pid) (Logged float args identity) := by
  have hblind : Blind fun s : Session ω => Counted float args identity submissions s ∧ s.pid = resolved.pid :=
    fun _ _ h => ⟨{ h.1 with }, h.2⟩
  have hplaced {x : Recording ω Unit} (h : Keeps (Placed float args identity submissions resolved.pid) x) :
      Triple (Placed float args identity submissions resolved.pid) x
        (fun _ => Placed float args identity submissions resolved.pid) (Logged float args identity) :=
    h.fails fun _ hs => hs.logged
  refine Triple.bind (Q := fun _ s => Counted float args identity submissions s ∧ s.pid = resolved.pid)
    (triple_modify fun _ h => ⟨{ h with }, rfl⟩) fun _ => ?_
  refine Triple.bind ((keeps_cgroupOf world hblind).fails fun _ h => h.1.logged)
    fun cgroup => ?_
  refine Triple.bind (Q := fun _ s => Counted float args identity submissions s ∧ s.pid = resolved.pid)
    (triple_modify fun _ h => ⟨{ h.1 with }, h.2⟩) fun _ => ?_
  refine (inspectTarget_placed world hpid hdenotes).bind fun _ => ?_
  refine (hplaced (keeps_get.bind fun _ => (keeps_ask world Placed.blind _).bind fun _ =>
    (keeps_bail _).ite (keeps_pure _))).bind fun _ => ?_
  refine (hplaced (keeps_requireRecordable _)).bind fun _ => Triple.get_bind fun session _ => ?_
  refine (hplaced (keeps_requireNativeArchitecture args _)).bind fun _ => ?_
  refine (hplaced (keeps_ask world Placed.blind _)).bind fun _ => ?_
  refine (attachAgain_steady world limit).bind fun _ => ?_
  refine Triple.bind ((warn_steady (restartMessage resolved.pid)).post fun _ s h => ?_) fun _ =>
    (readIdentityAndMaps_ready world).bind fun _ => triple_modify fun _ h => { h with }
  refine { h.1 with next := fun last hlast => Boundary.restarted ?_ }
  rw [show s.header.pid = resolved.pid from h.1.pid]
  exact h.2

theorem switchToDwarf_ready {last : RecordedWindow} {ratio : F} :
    Triple (Closed world.float args identity submissions process last (some ratio)) (switchToDwarf world args ratio)
      (fun _ => Ready world.float args identity submissions process) (Logged world.float args identity) := by
  let plan : Plan := ⟨last.target, .dwarf, some (switchReason world.float ratio)⟩
  refine Triple.get_bind fun session hsession => Triple.require (fun _ => ?_) fun _ h => h.toCounted.logged
  obtain ⟨⟨hauto, hfp⟩, hlow, hratio⟩ := hsession.low ratio rfl
  refine Triple.bind (Q := fun _ s => Symbolized world.float args identity submissions process s ∧ s.plan = plan)
    (triple_modify fun s h => ⟨{ h.toSymbolized with mode := ?_ }, ?_⟩) fun _ => ?_
  · unfold ModeFits
    rw [hauto]
    exact Or.inr ⟨rfl, rfl⟩
  · exact congrArg (Plan.mk · .dwarf (some (switchReason world.float ratio))) h.lastTarget
  refine Triple.bind (Q := fun _ s => Symbolized world.float args identity submissions process s ∧ s.plan = plan)
    (triple_modify fun s h => ⟨{ h.1 with }, h.2⟩) fun _ => ?_
  refine Triple.bind ((startCollectors_steady world).fails fun _ h => h.logged) fun _ => ?_
  have hready : ∀ s : Session ω, Steady world.float args identity submissions process s → s.plan = plan →
      (args.heap = true → heapSwitchMessage ∈ s.collectors.warnings) →
        Ready world.float args identity submissions process s := by
    intro s h hplan hheap
    refine { h with next := fun last' hmem => ?_ }
    have hlast : last'.window = last := by
      have hsame := hsession.isLast
      rw [hmem] at hsame
      exact Option.some.inj hsame
    rw [hlast]
    exact Boundary.switched ratio (h.pid.trans hsession.lastPid.symm) (congrArg Plan.target hplan) hauto hfp
      (congrArg Plan.mode hplan) hratio hlow (congrArg Plan.reason hplan) hheap
  refine Triple.ite (fun _ => ?_) fun hheap => triple_pure fun s h => hready s h.1 h.2 fun htrue => absurd htrue hheap
  exact triple_modify fun s h => hready _ { h.1 with } h.2 fun _ => List.mem_append_right _ (List.mem_singleton_self _)

def GoesOn (float : RatioF64 F) (args : Args) (identity : LogicalIdentity) (goesOn : Bool) (s : Session ω) : Prop :=
  if goesOn = true then ∃ submissions process, Ready float args identity submissions process s
  else Ended float args identity s

theorem waitForRestarted_resolved :
    Triple (Counted float args identity submissions) (waitForRestarted world)
      (fun found s => Counted float args identity submissions s ∧
        ∀ target ∈ found, target.metadata.pid = target.pid ∧ identity.Denotes target.metadata)
      (Logged float args identity) := by
  have hblind : Blind (Counted float args identity submissions (ω := ω)) := fun _ _ h => { h with }
  refine Triple.get_bind fun session hsession => ?_
  refine Triple.bind ((keeps_ask world hblind _).fails fun _ h => h.logged) fun turns => ?_
  obtain ⟨hresolver, htarget⟩ := hsession.resolver.wait session.preflight.target turns
  revert hresolver htarget
  cases TargetResolver.waitForRestartedTarget session.preflight.target turns session.resolver with
  | mk result resolver =>
    intro hresolver htarget
    refine Triple.bind (Q := fun _ => Counted float args identity submissions)
      (triple_modify fun _ h => { h with resolver := hresolver }) fun _ => ?_
    cases result with
    | none => exact triple_throw fun _ h => h.logged
    | some result =>
      cases result with
      | error error => exact triple_throw fun _ h => h.logged
      | ok found => exact triple_pure fun _ h => ⟨h, fun target hmem => htarget target (by rw [hmem])⟩

theorem followRestart_goesOn (limit : ℕ) :
    Triple (Counted float args identity submissions) (followRestart world args limit) (GoesOn float args identity)
      (Logged float args identity) := by
  refine Triple.get_bind fun _ _ => Triple.ite (fun _ => triple_pure fun _ h => h.ended) fun _ => ?_
  refine Triple.bind (Q := fun _ => Counted float args identity submissions) (triple_modify fun _ h => { h with })
    fun _ => ?_
  refine (waitForRestarted_resolved world).bind fun found => ?_
  cases found with
  | none => exact triple_pure fun _ h => h.1.ended
  | some resolved =>
    refine Triple.assume fun htarget => ?_
    obtain ⟨hpid, hdenotes⟩ := htarget resolved rfl
    exact (restart_ready world hpid hdenotes limit).bind fun _ => triple_pure fun _ h => ⟨_, _, h⟩

theorem Closed.goesOn {last : RecordedWindow} {s : Session ω}
    (h : Closed float args identity submissions process last none s) :
    Ready float args identity submissions process s := by
  refine { h with next := fun last' hmem => ?_ }
  have hlast : last'.window = last := by
    have hsame := h.isLast
    rw [hmem] at hsame
    exact Option.some.inj hsame
  rw [hlast]
  exact Boundary.goesOn (h.pid.trans h.lastPid.symm) h.lastTarget h.lastMode h.lastReason h.lastHeap h.taken

theorem betweenWindows_goesOn {last : RecordedWindow} (lowRatio : Option F) (limit : ℕ) :
    Triple (Closed world.float args identity submissions process last lowRatio)
      (betweenWindows world args limit lowRatio) (GoesOn world.float args identity)
      (Logged world.float args identity) := by
  have hblind : Blind (Closed world.float args identity submissions process last lowRatio (ω := ω)) :=
    fun _ _ h => { h with }
  have hlogged : ∀ s : Session ω, Closed world.float args identity submissions process last lowRatio s →
      Logged world.float args identity s := fun s h => h.toCounted.logged
  refine Triple.bind ((keeps_observe hblind _).fails hlogged) fun stopped => ?_
  refine Triple.ite (fun _ => triple_pure fun _ h => h.toCounted.ended) fun _ => ?_
  refine Triple.bind ((keeps_deadlineReached world hblind).fails hlogged) fun reached => ?_
  refine Triple.ite (fun _ => triple_pure fun _ h => h.toCounted.ended) fun _ => ?_
  refine Triple.get_bind fun session hsession => ?_
  refine Triple.ite (fun _ => (followRestart_goesOn world limit).pre fun s h => h.toCounted) fun _ => ?_
  refine Triple.ite (fun hexec => ?_) fun _ => ?_
  · have hlast : ∀ last' ∈ submissions.getLast?, last'.window.pid = process ∧ execMessage ∈ last'.window.warnings := by
      intro last' hmem
      have hsame := hsession.isLast
      rw [hmem] at hsame
      rw [show last'.window = last from Option.some.inj hsame]
      exact ⟨hsession.lastPid, hsession.exec hexec⟩
    refine ((followExec_ready world limit hlast).pre fun s h => h.toPlaced).bind fun _ => ?_
    exact triple_pure fun _ h => ⟨_, _, h⟩
  · cases lowRatio with
    | some ratio => exact (switchToDwarf_ready world).bind fun _ => triple_pure fun _ h => ⟨_, _, h⟩
    | none => exact triple_pure fun _ h => ⟨_, _, h.goesOn⟩

/-! ## The recording -/

theorem windowTurn_goesOn (limit : ℕ) :
    Triple (fun s => ∃ submissions process, Ready world.float args identity submissions process s)
      (windowTurn world args limit) (GoesOn world.float args identity) (Logged world.float args identity) := by
  intro s hs
  obtain ⟨submissions, process, hs⟩ := hs
  revert s
  have hblind : Blind (Ready world.float args identity submissions process (ω := ω)) := fun _ _ h => { h with }
  have hlogged : ∀ s : Session ω, Ready world.float args identity submissions process s →
      Logged world.float args identity s := fun s h => h.toCounted.logged
  change Triple (Ready world.float args identity submissions process) _ _ _
  refine Triple.bind ((keeps_observe hblind _).fails hlogged) fun stopped => ?_
  refine Triple.ite (fun _ => triple_pure fun _ h => h.toCounted.ended) fun _ => Triple.get_bind fun _ _ => ?_
  refine Triple.ite (fun _ => triple_pure fun _ h => h.toCounted.ended) fun _ => ?_
  refine Triple.bind ((keeps_deadlineReached world hblind).fails hlogged) fun reached => ?_
  refine Triple.ite (fun _ => triple_pure fun _ h => h.toCounted.ended) fun _ => ?_
  refine (openWindow_inWindow world).bind fun _ => ?_
  refine (pollRounds_inWindow world limit).bind fun _ => ?_
  refine (closeWindow_closed world).bind fun lowRatio => ?_
  rintro s ⟨submissions, last, h⟩
  exact betweenWindows_goesOn world lowRatio limit s h

theorem coherent_nil (sessionId : String) : Coherent float args identity sessionId [] :=
  ⟨rfl, fun _ h => absurd h List.not_mem_nil, List.isChain_nil⟩

theorem ready_first {s : Session ω} (h : Steady float args identity [] process s) :
    Ready float args identity [] process s := { h with next := fun _ hlast => by cases hlast }

theorem keeps_startDeadline {Inv : Session ω → Prop} (h : Blind Inv)
    (hdeadline : ∀ s deadline, Inv s → Inv { s with recordingDeadline := deadline }) :
    Keeps Inv (startDeadline world args) := by
  refine (keeps_observe h _).bind fun started => (keeps_pure ()).ite ?_
  cases checkedAdd started args.duration with
  | none => exact keeps_bail _
  | some deadline => exact keeps_modify fun s hs => hdeadline s _ hs

theorem startRecording_ready (limit : ℕ) :
    Triple (Placed float args identity [] process) (startRecording world args limit)
      (fun _ => Ready float args identity [] process) (Logged float args identity) := by
  have hplaced {α : Type} {x : Recording ω α} (h : Keeps (Placed float args identity [] process) x) :
      Triple (Placed float args identity [] process) x (fun _ => Placed float args identity [] process)
        (Logged float args identity) := h.fails fun _ hs => hs.logged
  refine Triple.get_bind fun session hsession => Triple.get_bind fun _ _ => ?_
  refine (hplaced (keeps_requireNativeArchitecture args _)).bind fun _ => ?_
  refine (hplaced (keeps_ask world Placed.blind _)).bind fun _ => ?_
  refine (hplaced (keeps_unixNanos world Placed.blind)).bind fun started => ?_
  refine (hplaced (keeps_cgroupOf world Placed.blind)).bind fun cgroup => ?_
  refine Triple.bind (Q := fun _ => Placed float args identity [] process)
    (triple_modify fun _ h => { h with coherent := coherent_nil _ }) fun _ => ?_
  refine Triple.bind ((launch_chosen world limit _).fails fun _ h => h.logged) fun _ => ?_
  refine Triple.bind ((symbolizerForProcess_chosen world).fails fun _ h => h.toCounted.logged) fun symbolizer =>
    Triple.assume fun hpid => ?_
  -- From here on the process is known, and each step adds what the next invariant asks for.
  have hchosen : Blind (Chosen float args identity [] process (ω := ω)) := fun _ _ h => { h with }
  refine Triple.bind ((keeps_ask world hchosen _).fails fun _ h => h.toCounted.logged)
    fun _ => ?_
  refine Triple.bind (Q := fun _ => Symbolized float args identity [] process)
    (triple_modify fun _ h =>
      { h with windows := rfl, accepted := fun _ hc => absurd hc List.not_mem_nil, symbolizer := hpid }) fun _ => ?_
  refine Triple.bind (Q := fun _ => Steady float args identity [] process) ?_ fun _ => ?_
  · refine Triple.ghost Session.plan fun plan => ?_
    exact (startCollectors_steady world).conseq (fun _ => id) (fun _ _ h => h.1) fun _ h => h.logged
  have hready : Blind (Ready float args identity [] process (ω := ω)) := fun _ _ h => { h with }
  have hrest : Triple (Ready float args identity [] process)
      (do startDeadline world args; readIdentityAndMaps world) (fun _ => Ready float args identity [] process)
      (Logged float args identity) :=
    Triple.bind ((keeps_startDeadline world hready fun _ _ h => { h with }).conseq (fun _ => id) (fun _ _ => id)
      fun _ h => h.toCounted.logged) fun _ => readIdentityAndMaps_ready world
  refine Triple.pre ?_ fun _ h => ready_first h
  cases args.resumePid with
  | none => exact hrest
  | some pid =>
    exact Triple.bind ((keeps_ask world hready _).fails fun _ h => h.toCounted.logged)
      fun _ => hrest

/-- A recording that ends well has finished its writer. -/
theorem record_ended (limit : ℕ) :
    Triple (Placed world.float args identity [] process) (record world args limit)
      (fun _ s => Ended world.float args identity s ∧ ∃ called ∈ s.calls, called.call = .finish)
      (Logged world.float args identity) := by
  refine (startRecording_ready world limit).bind fun _ => ?_
  refine Triple.bind (Q := fun _ => Ended world.float args identity) ?_ fun _ => ?_
  · refine (Triple.turns (windowTurn_goesOn world limit) ?_ limit).pre fun _ h => ⟨_, _, h⟩
    rintro s ⟨submissions, process, h⟩
    exact h.toCounted.logged
  · refine triple_callWriter world (fun _ _ h => ⟨h.logged, h.accepted⟩) (fun s h => ?_) fun s error h => ?_
    · refine ⟨⟨?_, accepted_snoc h.accepted _ _⟩, _, List.mem_append_right _ (List.mem_singleton_self _), rfl⟩
      have hlogged := h.logged
      unfold Logged at hlogged ⊢
      rwa [recorded_snoc fun _ => by rfl]
    · have hlogged := h.logged
      unfold Logged at hlogged ⊢
      rwa [recorded_snoc fun _ => by rfl]

end

end Recorder

end RustProfile
