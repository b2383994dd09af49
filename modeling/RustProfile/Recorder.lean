import RustProfile.Lib.Triple
import RustProfile.HeapCollector
import RustProfile.KernelVersion
import RustProfile.MapsRefresh
import RustProfile.OffCpu
import RustProfile.OutputWriter
import RustProfile.PerfRecord
import RustProfile.Record

/-!
# The recorder

`record` attaches collectors to the target and records one window after another
until it is stopped, its time is over or the target is gone. At an exec, at a
restart of a container and when frame pointers turn out to be unusable it drops
the collectors and attaches new ones. What the kernel, procfs, the collectors
and the output worker answer is the world's; each answer may be anything.
-/

namespace RustProfile

namespace Recorder

/-! ## What is recorded -/

structure FileIdentity where
  device : ℕ
  inode : ℕ
  modified : ℤ
  size : ℕ
  deriving DecidableEq, Repr

structure AllocatorReport where
  detected : Option String
  complete : Bool
  reason : Option String
  deriving DecidableEq, Repr

/-- What `inspect` finds out about a process. -/
structure Inspection where
  executable : String
  architecture : String
  kernelRelease : String
  hasUnwindInfo : Bool
  allocator : AllocatorReport
  errors : List String
  deriving DecidableEq, Repr

structure CheckReport extends Inspection where
  target : ResolvedMetadata
  deriving DecidableEq, Repr

def CheckReport.isRecordable (self : CheckReport) : Bool := self.errors.isEmpty

/-- Times are in nanoseconds; a duration of zero has no end. -/
structure Args extends Record.RecordArgs where
  unwind : UnwindMode
  duration : ℕ
  window : ℕ
  allowPartial : Bool
  launchCgroup : Option String
  resumePid : Option ℤ
  nativeArchitecture : String

/-- The arguments with the process that they are about by now. -/
def Args.at (self : Args) (pid : ℤ) : Record.RecordArgs := { self.toRecordArgs with pid := pid }

def Args.launchAuto (self : Args) : Bool := self.resumePid.isSome && self.unwind = .auto

structure TargetScope where
  requested : String
  effective : String
  cgroupPath : Option String
  degradedReason : Option String
  deriving DecidableEq, Repr

/-- A symbolizer is known by the process and the mappings that it was built from. -/
structure ProcessSymbolizer where
  pid : ℤ
  maps : List MapLine
  deriving DecidableEq, Repr

/-- What `record` has of a window when it submits it. -/
structure RecordedWindow where
  sessionId : String
  pid : ℤ
  index : ℕ
  target : ResolvedMetadata
  executable : String
  requestedMode : UnwindMode
  selectedMode : UnwindMode
  fallbackReason : Option String
  allocatorProbe : AllocatorReport
  scope : TargetScope
  cpuWindow : CpuWindow
  heapProfile : Option (Table Stack HeapValues)
  offCpuProfile : Option (Table AttributedStack OffCpuValues)
  clockAnchor : PerfClockAnchor
  startedUnixNanos : ℤ
  endedUnixNanos : ℤ
  warnings : List String

/-- The window as it goes to the writer. -/
def RecordedWindow.output (args : Args) (self : RecordedWindow) : Record.WindowOutput :=
  Record.windowOutput (args.at self.pid)
    { index := self.index
      cpuWindow := self.cpuWindow
      heapProfile := self.heapProfile
      offCpuProfile := self.offCpuProfile
      clockAnchor := self.clockAnchor
      startedUnixNanos := self.startedUnixNanos
      endedUnixNanos := self.endedUnixNanos
      cgroup := self.scope.cgroupPath.isSome
      target := self.target.toTargetMetadata
      executable := self.executable
      warnings := self.warnings }

abbrev RecorderCall := WriterCall RecordedWindow ProcessSymbolizer

structure LifecycleEvents where
  threadChange : Bool
  exec : Bool
  deriving DecidableEq, Repr

/-- The calls of `ingest_cpu_batch` that reading the perf events leads to, and what it ran into after them. -/
structure Ingestion (δ : Type) where
  calls : List (IngestCall δ)
  error : Option String

/-! ## The world -/

/-- A call that may fail, with the type of its answer. -/
inductive Request (δ : Type) : Type → Type where
  | openPidfd (pid : ℤ) : Request δ Unit
  | pidfdExited (pid : ℤ) : Request δ Bool
  | cgroupPath (target : ResolvedTarget) : Request δ (Option String)
  | executableIdentity (pid : ℤ) : Request δ FileIdentity
  | readProcessMaps (pid : ℤ) : Request δ (List MapLine)
  | processStartTime (pid : ℤ) : Request δ ℕ
  | inspect (pid : ℤ) : Request δ Inspection
  | buildSymbolizer (pid : ℤ) (maps : List MapLine) : Request δ Unit
  | startWriter (symbolizer : ProcessSymbolizer) : Request δ Unit
  | writer (call : RecorderCall) : Request δ Unit
  | attachLifecycle (pid : ℤ) : Request δ (Except String Unit)
  | startCpu (pid : ℤ) (mode : UnwindMode) (cgroup : Option String) : Request δ Unit
  | attachHeap (pid : ℤ) (mode : UnwindMode) : Request δ ℕ
  | attachOffCpu (pid : ℤ) (cgroup : Option String) : Request δ Unit
  | continueTarget (pid : ℤ) : Request δ Unit
  | captureClock : Request δ ℕ
  | consumeLifecycle : Request δ LifecycleEvents
  | reconcileCollectors (cpu offCpu : Bool) (cgroup : Option String) : Request δ Unit
  | waitAndIngest : Request δ (Ingestion δ)
  | drainAndIngest : Request δ (Ingestion δ)
  | drainHeap : Request δ Unit
  | drainOffCpu : Request δ Unit
  | refreshRoot (pid : ℤ) (maps : List MapLine) : Request δ Unit
  | refreshUnwinder (pid : ℤ) (maps : List MapLine) : Request δ Unit
  | snapshotHeap : Request δ (Table Stack HeapValues × HeapWindowDiagnostics)
  | snapshotOffCpu : Request δ (Table AttributedStack OffCpuValues × OffCpuWindowDiagnostics)
  | startCalibration (pid : ℤ) : Request δ Unit
  | calibrationThreads : Request δ Unit
  | calibrationSamples : Request δ (List PerfSampleData)
  | restartTurns : Request δ (List (Option TargetWorld))

/-- What `record` computes with an `f64`. -/
structure RatioF64 (F : Type) where
  zero : F
  ninetyPercent : F
  seventyPercent : F
  div : ℕ → ℕ → F
  min : F → F → F
  lt : F → F → Bool
  /-- `{:.1}` of a hundred times the number -/
  percent : F → String

/-- What is outside of the recorder: its state is `ω`, and `δ` that of an unwinder. -/
structure RecorderWorld (F δ ω : Type) where
  float : RatioF64 F
  comm : CommReader ω
  stopped : ω → Bool × ω
  now : ω → ℕ × ω
  unixNanos : ω → ℕ × ω
  answer : {α : Type} → Request δ α → ω → Except String α × ω

/-! ## The state -/

/-- What is attached. Before the start and once it is dropped it is nothing. -/
structure Collectors where
  pid : ℤ := 0
  mode : UnwindMode := .auto
  cpu : Bool := false
  heap : Bool := false
  offCpu : Bool := false
  heapFailure : Option String := none
  offCpuFailure : Option String := none
  warnings : List String := []
  deriving DecidableEq, Repr

structure FpQuality where
  samples : ℕ := 0
  usableSamples : ℕ := 0
  validAddresses : ℕ := 0
  totalAddresses : ℕ := 0
  deepSamples : ℕ := 0
  cyclicSamples : ℕ := 0
  deriving DecidableEq, Repr

/-- What the calibration of frame pointers carries. -/
structure Calibration where
  quality : FpQuality := {}
  executableRanges : ExecutableRanges
  identity : FileIdentity
  started : ℕ
  lastReconcile : ℕ
  restarted : Bool := false

/-- The window that is being recorded. -/
structure OpenWindow where
  clockAnchor : PerfClockAnchor
  deadline : ℕ
  cpuWindow : CpuWindow
  warnings : List String
  lastReconcile : ℕ
  execDetected : Bool

/-- A call of the writer, with its result and the collectors of the time. -/
structure Called where
  call : RecorderCall
  result : Except String Unit
  collectors : Collectors

/-- The variables of `record`, what is outside of it, and its calls of the writer so far. Nothing reads the calls. -/
structure Session (ω : Type) where
  outside : ω
  pid : ℤ
  preflight : CheckReport
  resolver : TargetResolver
  sessionId : String := ""
  windowIndex : ℕ := 0
  targetExited : Bool := false
  cgroupPath : Option String := none
  selectedMode : UnwindMode := .auto
  fallbackReason : Option String := none
  collectors : Collectors := {}
  recordingDeadline : Option ℕ := none
  exeIdentity : FileIdentity := ⟨0, 0, 0, 0⟩
  maps : List MapLine := []
  calibration : Calibration :=
    { executableRanges := rangesOf [], identity := ⟨0, 0, 0, 0⟩, started := 0, lastReconcile := 0 }
  window : OpenWindow := ⟨⟨0, 0⟩, 0, .new 0 0 0 false 0, [], 0, false⟩
  firstSymbolizer : ProcessSymbolizer := ⟨0, []⟩
  calls : List Called := []

/-- `unfinished` ends an observation while a loop still turns. -/
inductive RecordError where
  | failed (message : String)
  | kernel (error : KernelVersionError)
  | target (error : TargetError)
  | unfinished

abbrev Recording (ω α : Type) := Attempt RecordError (Session ω) α

def reconcileInterval : ℕ := 1000000000
def fpCalibrationLimit : ℕ := 10000000000

section
variable {F δ ω : Type} (world : RecorderWorld F δ ω)

def observe {α : Type} (f : ω → α × ω) : Recording ω α := do
  let session ← get
  let (answer, outside) := f session.outside
  set { session with outside := outside }
  return answer

def ask {α : Type} (request : Request δ α) : Recording ω α := do
  Attempt.ofExcept ((← observe (world.answer request)).mapError .failed)

def bail {α : Type} (message : String) : Recording ω α := throw (.failed message)

/-- `unix_nanos`: a time before 1970 counts as 1970. -/
def unixNanos : Recording ω ℤ := do
  return saturatingI64 (← observe world.unixNanos)

def callWriter (call : RecorderCall) : Recording ω Unit := do
  let result ← observe (world.answer (.writer call))
  modify fun session => { session with calls := session.calls ++ [⟨call, result, session.collectors⟩] }
  Attempt.ofExcept (result.mapError .failed)

/-- `deadline_reached`. -/
def deadlineReached : Recording ω Bool := do
  match (← get).recordingDeadline with
  | some deadline => return deadline ≤ (← observe world.now)
  | none => return false

/-- Something that fails because the target has exited ends the window, not the recording. -/
def orExited (attempt : Recording ω Unit) : Recording ω Bool :=
  tryCatch (do attempt; return true) fun error => do
    if ← ask world (.pidfdExited (← get).pid) then
      modify fun session => { session with targetExited := true }
      return false
    else throw error

end

/-! ## Attaching -/

section
variable {F δ ω : Type} (world : RecorderWorld F δ ω) (args : Args)

/-- The heap collector, if it is wanted: how many probes it has, or why there is none. -/
def attachHeap (preflight : CheckReport) (mode : UnwindMode) : Recording ω (Option ℕ × Option String) := do
  let pid := (← get).pid
  let unavailable := preflight.allocator.reason.getD "heap allocator probes are unavailable"
  if !args.heap then return (none, none)
  else if preflight.allocator.complete then
    tryCatch (do return (some (← ask world (.attachHeap pid mode)), none)) fun error =>
      match error with
      | .failed message =>
        if args.allowPartial then return (none, some ("heap profiling was disabled after attach failed: " ++ message))
        else bail ("heap profiling could not be enabled: " ++ message)
      | error => throw error
  else if args.allowPartial then return (none, some unavailable)
  else bail ("heap profiling is unavailable: " ++ preflight.allocator.reason.getD "allocator probes are unavailable")

def attachOffCpu (cgroup : Option String) : Recording ω (Bool × Option String) := do
  let pid := (← get).pid
  if !args.offCpu then return (false, none)
  else
    tryCatch (do ask world (.attachOffCpu pid cgroup); return (true, none)) fun error =>
      match error with
      | .failed message =>
        if args.allowPartial then return (false, some ("off-CPU profiling was disabled: " ++ message))
        else bail ("off-CPU profiling could not be enabled: " ++ message)
      | error => throw error

/-- `Collectors::start`. -/
def startCollectors : Recording ω Unit := do
  let session ← get
  let preflight := session.preflight
  let mode := session.selectedMode
  if mode = .dwarf ∧ !preflight.hasUnwindInfo ∧ !args.allowPartial then
    bail ("DWARF unwind was selected but no .eh_frame or .debug_frame is available; " ++
      "use --allow-partial for leaf-only output")
  let bpf ← ask world (.attachLifecycle session.pid)
  let lifecycle ← Attempt.ofExcept ((LifecycleNotifier.attach bpf preflight.kernelRelease).mapError .kernel)
  if args.cpu then ask world (.startCpu session.pid mode session.cgroupPath)
  let (probes, heapFailure) ← attachHeap world args preflight mode
  let (offCpu, offCpuFailure) ← attachOffCpu world args session.cgroupPath
  if !args.cpu ∧ probes.isNone ∧ !offCpu then bail "none of the requested profile types could be enabled"
  let attached := probes.map fun count => "attached " ++ toString count ++ " allocator probes for heap sampling"
  let collectors : Collectors :=
    { pid := session.pid
      mode := mode
      cpu := args.cpu
      heap := probes.isSome
      offCpu := offCpu
      heapFailure := heapFailure
      offCpuFailure := offCpuFailure
      warnings := lifecycle.fallbackReason.toList ++ heapFailure.toList ++ offCpuFailure.toList ++ attached.toList }
  modify fun session => { session with collectors := collectors }

/-- `drop(collectors)`. -/
def dropCollectors : Recording ω Unit := modify fun session => { session with collectors := {} }

def warn (message : String) : Recording ω Unit :=
  modify fun session =>
    { session with collectors := { session.collectors with warnings := session.collectors.warnings ++ [message] } }

/-- `Symbolizer::for_process`. -/
def symbolizerForProcess : Recording ω ProcessSymbolizer := do
  let pid := (← get).pid
  let maps ← ask world (.readProcessMaps pid)
  ask world (.buildSymbolizer pid maps)
  return ⟨pid, maps⟩

/-- `executable_identity` and `read_process_maps` of the target as it is now. -/
def readIdentityAndMaps : Recording ω Unit := do
  let pid := (← get).pid
  let identity ← ask world (.executableIdentity pid)
  let maps ← ask world (.readProcessMaps pid)
  modify fun session => { session with exeIdentity := identity, maps := maps }

/-- `require_native_architecture`. -/
def requireNativeArchitecture (architecture : String) : Recording ω Unit :=
  if architecture ≠ args.nativeArchitecture then
    bail ("target architecture " ++ architecture ++ " does not match profiler architecture " ++ args.nativeArchitecture)
  else pure ()

/-- `process::inspect`, which puts the target into the report as it is given. -/
def inspectTarget (target : ResolvedMetadata) : Recording ω Unit := do
  let found ← ask world (.inspect (← get).pid)
  modify fun session => { session with preflight := { found with target := target } }

def requireRecordable (after : String) : Recording ω Unit := do
  let preflight := (← get).preflight
  if !preflight.isRecordable then
    bail ("preflight failed after " ++ after ++ ": " ++ String.intercalate "; " preflight.errors)

def refreshPreflightAfterExec : Recording ω Unit := do
  let session ← get
  let ticks ← ask world (.processStartTime session.pid)
  inspectTarget world { session.preflight.target with pid := session.pid, processStartTimeTicks := ticks }
  requireRecordable "exec"
  requireNativeArchitecture args (← get).preflight.architecture

end

/-! ## The unwind mode -/

namespace FpQuality

section
variable (self : FpQuality)

def observe (frames : List UInt64) (executableRanges : ExecutableRanges) : FpQuality :=
  let valid := (frames.filter executableRanges.contains).length
  let cyclic := hasAddressCycle frames
  { samples := self.samples + 1
    usableSamples :=
      if frames ≠ [] ∧ valid = frames.length ∧ !cyclic then self.usableSamples + 1 else self.usableSamples
    validAddresses := self.validAddresses + valid
    totalAddresses := self.totalAddresses + frames.length
    deepSamples := if 3 ≤ frames.length then self.deepSamples + 1 else self.deepSamples
    cyclicSamples := if cyclic then self.cyclicSamples + 1 else self.cyclicSamples }

end

section
variable {F : Type} (float : RatioF64 F)

def ratio (numerator denominator : ℕ) : F := if denominator = 0 then float.zero else float.div numerator denominator

variable (self : FpQuality)

def validRatio : F := ratio float self.validAddresses self.totalAddresses
def deepRatio : F := ratio float self.deepSamples self.samples

def calibrationPasses : Bool :=
  64 ≤ self.samples && !float.lt (self.validRatio float) float.ninetyPercent &&
    !float.lt (self.deepRatio float) float.seventyPercent && self.cyclicSamples = 0

def rejectionReason : String :=
  if self.samples < 64 then
    "only " ++ toString self.samples ++ " samples were collected during FP calibration"
  else if float.lt (self.validRatio float) float.ninetyPercent then
    "only " ++ float.percent (self.validRatio float) ++ "% of FP addresses were executable"
  else if float.lt (self.deepRatio float) float.seventyPercent then
    "only " ++ float.percent (self.deepRatio float) ++ "% of FP samples reached three frames"
  else if self.cyclicSamples ≠ 0 then
    toString self.cyclicSamples ++ " FP samples contained an address cycle"
  else "frame-pointer calibration failed"

end

end FpQuality

section
variable {F δ ω : Type} (world : RecorderWorld F δ ω) (args : Args)

def setCalibration (f : Calibration → Calibration) : Recording ω Unit :=
  modify fun session => { session with calibration := f session.calibration }

/-- The target has executed a new image: it is inspected again, and the calibration starts anew. -/
def restartCalibration : Recording ω Bool := do
  refreshPreflightAfterExec world args
  setCalibration fun calibration => { calibration with restarted := true }
  return false

def startCalibration : Recording ω Unit := do
  let pid := (← get).pid
  let maps ← ask world (.readProcessMaps pid)
  let identity ← ask world (.executableIdentity pid)
  ask world (.startCalibration pid)
  let bpf ← ask world (.attachLifecycle pid)
  let _ ← Attempt.ofExcept ((LifecycleNotifier.attach bpf (← get).preflight.kernelRelease).mapError .kernel)
  let started ← observe world.now
  let lastReconcile ← observe world.now
  setCalibration fun _ =>
    { executableRanges := rangesOf maps, identity := identity, started := started, lastReconcile := lastReconcile }

/-- The condition of the loop. -/
def calibrating : Recording ω Bool := do
  let calibration := (← get).calibration
  let now ← observe world.now
  if now - calibration.started < fpCalibrationLimit ∧ calibration.quality.samples < 64 then
    return !(← observe world.stopped)
  else return false

def calibrationEvents : Recording ω Bool := do
  if ← ask world (.pidfdExited (← get).pid) then bail "target exited during frame-pointer calibration"
  let events ← ask world .consumeLifecycle
  if events.exec then restartCalibration world args
  else do
    if events.threadChange then ask world .calibrationThreads
    return true

def observeSamples : Recording ω Bool := do
  let samples ← ask world .calibrationSamples
  setCalibration fun calibration => { calibration with
    quality := samples.foldl (fun quality sample =>
      match sample with
      | .framePointer frames => quality.observe frames calibration.executableRanges
      | .dwarf _ => quality) calibration.quality }
  return true

def reconcileCalibration : Recording ω Bool := do
  let session ← get
  if (← observe world.now) - session.calibration.lastReconcile < reconcileInterval then return true
  else
    ask world .calibrationThreads
    let identity ← ask world (.executableIdentity session.pid)
    if identity ≠ session.calibration.identity then restartCalibration world args
    else
      let now ← observe world.now
      setCalibration fun calibration => { calibration with identity := identity, lastReconcile := now }
      return true

def calibrationRound : Recording ω Bool :=
  Attempt.andThen (calibrating world) (Attempt.andThen (calibrationEvents world args)
    (Attempt.andThen (observeSamples world) (reconcileCalibration world args)))

def setMode (mode : UnwindMode) (reason : Option String) : Recording ω Unit :=
  modify fun session => { session with selectedMode := mode, fallbackReason := reason }

/-- The verdict on the frame pointers. -/
def concludeCalibration : Recording ω Unit := do
  if ← observe world.stopped then bail "recording was interrupted during frame-pointer calibration"
  let session ← get
  let quality := session.calibration.quality
  if quality.calibrationPasses world.float then setMode .fp none
  else
    let reason := quality.rejectionReason world.float
    if !session.preflight.hasUnwindInfo ∧ !args.allowPartial then
      bail ("FP calibration failed (" ++ reason ++ ") and no usable unwind table exists")
    setMode .dwarf (some reason)

/-- A turn of the outer loop, which goes on after an exec. -/
def calibrate (limit : ℕ) : Recording ω Bool := do
  startCalibration world
  Attempt.turns .unfinished (calibrationRound world args) limit
  if (← get).calibration.restarted then return true
  else
    concludeCalibration world args
    return false

def selectUnwindMode (limit : ℕ) : Recording ω Unit :=
  match args.unwind with
  | .fp => setMode .fp none
  | .dwarf => setMode .dwarf none
  | .auto => Attempt.turns .unfinished (calibrate world args limit) limit

/-- The mode after the target has become another program. A launched one starts with frame pointers. -/
def selectModeAgain (limit : ℕ) : Recording ω Unit :=
  if args.launchAuto then
    setMode .fp (some "launch exec boundary restarted frame-pointer window calibration")
  else selectUnwindMode world args limit

end

/-! ## A window -/

section
variable {F δ ω : Type} (world : RecorderWorld F δ ω) (args : Args)

def setWindow (f : OpenWindow → OpenWindow) : Recording ω Unit :=
  modify fun session => { session with window := f session.window }

def warnWindow (message : String) : Recording ω Unit :=
  setWindow fun window => { window with warnings := window.warnings ++ [message] }

/-- The calls of `ingest_cpu_batch`, up to the first that fails. -/
def ingestCalls : List (IngestCall δ) → Recording ω Unit
  | [] => pure ()
  | call :: calls => do
    let session ← get
    let result := ingestCpuBatch world.comm session.window.cpuWindow session.outside call
    set { session with
      outside := result.1.world
      window := { session.window with cpuWindow := result.1.window } }
    match result.2.2 with
    | none => ingestCalls calls
    | some message => bail message

/-- `wait_and_ingest` and `drain_and_ingest`. -/
def ingest (request : Request δ (Ingestion δ)) : Recording ω Unit := do
  let ingestion ← ask world request
  ingestCalls world ingestion.calls
  match ingestion.error with
  | none => pure ()
  | some message => bail message

def openWindow : Recording ω Unit := do
  let startedAt ← observe world.now
  let monotonicNanos ← ask world .captureClock
  let started ← unixNanos world
  match checkedAdd startedAt args.window with
  | none => bail "--window is too large"
  | some naturalEnd =>
    let lastReconcile ← observe world.now
    modify fun session => { session with
      collectors := { session.collectors with warnings := [] }
      window :=
        { clockAnchor := ⟨monotonicNanos, started⟩
          deadline := session.recordingDeadline.elim naturalEnd (min · naturalEnd)
          cpuWindow := (args.at session.pid).freshWindow
          warnings := session.collectors.warnings
          lastReconcile := lastReconcile
          execDetected := false } }

/-- The condition of the loop. -/
def windowOpen : Recording ω Bool := do
  let deadline := (← get).window.deadline
  if (← observe world.now) < deadline then return !(← observe world.stopped)
  else return false

/-- The window ends where the target executes a new image. -/
def endAtExec : Recording ω Bool := do
  setWindow fun window =>
    { window with
      execDetected := true
      warnings := window.warnings ++ ["target executed a new image; this window ended at the exec boundary"] }
  return false

def checkTarget : Recording ω Bool := do
  callWriter world .checkCompleted
  if ← ask world (.pidfdExited (← get).pid) then
    modify fun session => { session with targetExited := true }
    warnWindow "target process exited; this window ended at the process boundary"
    return false
  else return true

/-- `reconcile_collectors`. -/
def reconcileCollectors : Recording ω Unit := do
  let session ← get
  if session.collectors.cpu ∨ session.collectors.offCpu then
    ask world (.reconcileCollectors session.collectors.cpu session.collectors.offCpu session.cgroupPath)

def watchLifecycle : Recording ω Bool := do
  let events ← ask world .consumeLifecycle
  if events.exec then endAtExec
  else if events.threadChange then orExited world (reconcileCollectors world)
  else return true

def collect : Recording ω Bool := do
  let collectors := (← get).collectors
  if collectors.cpu then ingest world .waitAndIngest
  if collectors.heap then ask world .drainHeap
  if collectors.offCpu then ask world .drainOffCpu
  return true

/-- The collectors and the symbolizer get the new mappings. -/
def refreshSymbolizer (maps : List MapLine) : Recording ω Unit := do
  let session ← get
  if session.collectors.cpu then ask world (.refreshRoot session.pid maps)
  if session.collectors.heap then ask world (.refreshUnwinder session.pid maps)
  ask world (.buildSymbolizer session.pid maps)

def refreshMaps (refreshed : List MapLine) : Recording ω Bool := do
  let session ← get
  if sameMaps refreshed session.maps then return true
  else
    -- the list is replaced also where the change is of no executable file mapping
    set { session with maps := refreshed }
    if unwindMapsChanged session.maps refreshed then
      Attempt.andThen (orExited world (refreshSymbolizer world refreshed)) do
        callWriter world (.replaceSymbolizer ⟨session.pid, refreshed⟩)
        return true
    else return true

/-- An answer, unless there is none because the target has exited. -/
def askOrExited {α : Type} (request : Request δ α) (next : α → Recording ω Bool) : Recording ω Bool := do
  match ← observe (world.answer request) with
  | .ok answer => next answer
  | .error message => orExited world (bail message)

def reconcile : Recording ω Bool := do
  let session ← get
  if (← observe world.now) - session.window.lastReconcile < reconcileInterval then return true
  else
    let now ← observe world.now
    setWindow fun window => { window with lastReconcile := now }
    askOrExited world (.executableIdentity session.pid) fun identity =>
      if identity ≠ session.exeIdentity then endAtExec
      else Attempt.andThen (orExited world (reconcileCollectors world))
        (askOrExited world (.readProcessMaps session.pid) fun maps => refreshMaps world maps)

/-- A turn of the loop. -/
def pollRound : Recording ω Bool :=
  Attempt.andThen (windowOpen world) (Attempt.andThen (checkTarget world) (Attempt.andThen (watchLifecycle world)
    (Attempt.andThen (collect world) (reconcile world))))

end

/-! ## The end of a window -/

section
variable {F δ ω : Type} (world : RecorderWorld F δ ω) (args : Args)

def snapshotHeap : Recording ω (Option (Table Stack HeapValues × HeapWindowDiagnostics)) := do
  if (← get).collectors.heap then return some (← ask world .snapshotHeap) else return none

def snapshotOffCpu : Recording ω (Option (Table AttributedStack OffCpuValues × OffCpuWindowDiagnostics)) := do
  if (← get).collectors.offCpu then return some (← ask world .snapshotOffCpu) else return none

/-- What the window says of values that were left out. -/
def dropWarnings (cpuWindow : CpuWindow) (heap : Option HeapWindowDiagnostics) : List String :=
  let heapDrops := heap.elim 0 fun diagnostics =>
    saturatingAddI64 diagnostics.aggregationDropped.allocObjects diagnostics.aggregationDropped.inuseObjects
  (if cpuWindow.aggregationDroppedSamples ≠ 0 then
    ["CPU aggregation reached --max-stacks=" ++ toString args.maxStacks ++ "; " ++
      toString cpuWindow.aggregationDroppedSamples ++ " valid samples were omitted from profile output"] else []) ++
  (if heapDrops ≠ 0 then
    ["heap aggregation reached --max-stacks=" ++ toString args.maxStacks ++
      "; omitted values are reported in heap aggregation_dropped_* diagnostics"] else [])

/-- `[cpu, heap].into_iter().flatten().reduce(f64::min)`. -/
def fpUsableRatio (float : RatioF64 F) (cpuWindow : CpuWindow) (heap : Option HeapWindowDiagnostics) : Option F :=
  let cpuRatio :=
    if cpuWindow.totalSamples ≠ 0 then some (float.div cpuWindow.usableSamples cpuWindow.totalSamples) else none
  let heapRatio := heap.bind fun diagnostics =>
    if diagnostics.stackSamples ≠ 0 then some (float.div diagnostics.usableStacks diagnostics.stackSamples) else none
  match cpuRatio, heapRatio with
  | some cpu, some heap => some (float.min cpu heap)
  | some cpu, none => some cpu
  | none, heap => heap

def lowFpQuality (float : RatioF64 F) (mode : UnwindMode) (ratio : Option F) : Bool :=
  args.unwind = .auto && mode = .fp && ratio.any fun ratio => float.lt ratio float.ninetyPercent

def targetScope (kind : TargetKind) (cgroupPath : Option String) : TargetScope where
  requested := match kind with
    | .process => "process"
    | .docker => "container_cgroup"
    | .kubernetes => "container_cgroup"
  effective :=
    if cgroupPath.isSome ∧ args.heap then "mixed_process_and_cgroup"
    else if cgroupPath.isSome then "container_cgroup" else "process"
  cgroupPath := cgroupPath
  degradedReason :=
    if cgroupPath.isSome ∧ args.heap then
      some ("CPU and off-CPU use the container cgroup; sampled heap currently uses the container init process")
    else none

def allocatorProbe (session : Session ω) : AllocatorReport :=
  match session.collectors.heapFailure with
  | some reason => { session.preflight.allocator with complete := false, reason := some reason }
  | none => session.preflight.allocator

def recordedWindow (session : Session ω) (heap : Option (Table Stack HeapValues × HeapWindowDiagnostics))
    (offCpu : Option (Table AttributedStack OffCpuValues × OffCpuWindowDiagnostics)) (ended : ℤ) : RecordedWindow where
  sessionId := session.sessionId
  pid := session.pid
  index := session.windowIndex
  target := session.preflight.target
  executable := session.preflight.executable
  requestedMode := args.unwind
  selectedMode := session.selectedMode
  fallbackReason := session.fallbackReason
  allocatorProbe := allocatorProbe session
  scope := targetScope args session.preflight.target.kind session.cgroupPath
  cpuWindow := session.window.cpuWindow
  heapProfile := heap.map Prod.fst
  offCpuProfile := offCpu.map Prod.fst
  clockAnchor := session.window.clockAnchor
  startedUnixNanos := session.window.clockAnchor.unixNanos
  endedUnixNanos := ended
  warnings := session.window.warnings ++ dropWarnings args session.window.cpuWindow (heap.map Prod.snd)

/-- Everything is drained and the window submitted. The result is the ratio of usable stacks if it is too low. -/
def closeWindow : Recording ω (Option F) := do
  if (← get).collectors.cpu then ingest world .drainAndIngest
  let heap ← snapshotHeap world
  let offCpu ← snapshotOffCpu world
  let ended ← unixNanos world
  let session ← get
  let ratio := fpUsableRatio world.float session.window.cpuWindow (heap.map Prod.snd)
  callWriter world (.submit (recordedWindow args session heap offCpu ended))
  modify fun session => { session with windowIndex := session.windowIndex + 1 }
  return if lowFpQuality args world.float session.selectedMode ratio then ratio else none

/-! ## Between windows -/

/-- The collectors are attached to the target as it is now, and the writer gets its symbolizer. -/
def attachAgain (limit : ℕ) : Recording ω Unit := do
  selectModeAgain world args limit
  let symbolizer ← symbolizerForProcess world
  callWriter world (.replaceSymbolizer symbolizer)
  startCollectors world args

/-- `TargetResolver::validate_current`. -/
def validateCurrent : Recording ω Unit := do
  let last := (← get).resolver.last
  let current ← ask world (.processStartTime last.pid)
  if current ≠ last.metadata.processStartTimeTicks then
    bail ("target process " ++ toString last.pid ++ " changed identity while it was being resolved")

/-- `wait_for_restarted_target`. -/
def waitForRestarted : Recording ω (Option ResolvedTarget) := do
  let session ← get
  let turns ← ask world .restartTurns
  let (result, resolver) := TargetResolver.waitForRestartedTarget session.preflight.target turns session.resolver
  modify fun session => { session with resolver := resolver }
  match result with
  | none => throw .unfinished
  | some result => Attempt.ofExcept (result.mapError .target)

def cgroupOf : Recording ω (Option String) := do
  let resolver := (← get).resolver
  match resolver.identity with
  | .process _ _ => return none
  | .docker _ => ask world (.cgroupPath resolver.last)
  | .kubernetes _ _ _ _ => ask world (.cgroupPath resolver.last)

def restart (resolved : ResolvedTarget) (limit : ℕ) : Recording ω Unit := do
  modify fun session => { session with pid := resolved.pid }
  let cgroup ← cgroupOf world
  modify fun session => { session with cgroupPath := cgroup }
  inspectTarget world resolved.metadata
  validateCurrent world
  requireRecordable "target restart"
  requireNativeArchitecture args (← get).preflight.architecture
  ask world (.openPidfd resolved.pid)
  attachAgain world args limit
  warn ("target restarted with host PID " ++ toString resolved.pid ++
    "; collectors were reattached and heap inuse values restarted")
  readIdentityAndMaps world
  modify fun session => { session with targetExited := false }

/-- `TargetResolver::supports_restart`. -/
def supportsRestart (resolver : TargetResolver) : Bool :=
  match resolver.identity with
  | .process _ _ => false
  | .docker _ => true
  | .kubernetes _ _ _ _ => true

/-- The target has exited: the recording ends, unless the target is restarted. -/
def followRestart (limit : ℕ) : Recording ω Bool := do
  if !supportsRestart (← get).resolver then return false
  else
    dropCollectors
    match ← waitForRestarted world with
    | none => return false
    | some resolved =>
      restart world args resolved limit
      return true

def followExec (limit : ℕ) : Recording ω Unit := do
  dropCollectors
  refreshPreflightAfterExec world args
  attachAgain world args limit
  if (← get).collectors.heap then
    warn "heap probes were reattached after target exec; inuse values restart at that boundary"
  readIdentityAndMaps world

def switchToDwarf (ratio : F) : Recording ω Unit := do
  let reason := "formal FP window had only " ++ world.float.percent ratio ++
    "% usable stacks; switched permanently to DWARF"
  let preflight := (← get).preflight
  if !preflight.hasUnwindInfo ∧ !args.allowPartial then bail (reason ++ ", but no usable unwind table exists")
  setMode .dwarf (some reason)
  dropCollectors
  startCollectors world args
  if args.heap then
    warn "heap probes were reattached during the FP-to-DWARF transition; inuse values restart at that boundary"

/-- Whether another window follows. -/
def betweenWindows (limit : ℕ) (lowRatio : Option F) : Recording ω Bool := do
  if ← observe world.stopped then return false
  else if ← deadlineReached world then return false
  else
    let session ← get
    if session.targetExited then followRestart world args limit
    else if session.window.execDetected then
      followExec world args limit
      return true
    else
      match lowRatio with
      | some ratio =>
        switchToDwarf world args ratio
        return true
      | none => return true

/-- A turn of the outer loop: a window and what follows it. -/
def windowTurn (limit : ℕ) : Recording ω Bool := do
  if ← observe world.stopped then return false
  else if (← get).targetExited then return false
  else if ← deadlineReached world then return false
  else
    openWindow world args
    Attempt.turns .unfinished (pollRound world) limit
    let lowRatio ← closeWindow world args
    betweenWindows world args limit lowRatio

end

/-! ## The recording -/

section
variable {F δ ω : Type} (world : RecorderWorld F δ ω) (args : Args)

/-- `format!("{:x}-{}", unix_nanos(), pid)`. -/
def sessionName (startedUnixNanos : ℤ) (pid : ℤ) : String :=
  String.ofList (Nat.toDigits 16 startedUnixNanos.toNat) ++ "-" ++ toString pid

def startMode (limit : ℕ) : Recording ω Unit :=
  if args.launchAuto then
    setMode .fp (some "launch starts with frame-pointer sampling and calibrates in completed windows")
  else selectUnwindMode world args limit

def startDeadline : Recording ω Unit := do
  let started ← observe world.now
  if args.duration = 0 then pure ()
  else
    match checkedAdd started args.duration with
    | none => bail "--duration is too large"
    | some deadline => modify fun session => { session with recordingDeadline := some deadline }

def startRecording (limit : ℕ) : Recording ω Unit := do
  let pid := (← get).pid
  requireNativeArchitecture args (← get).preflight.architecture
  ask world (.openPidfd pid)
  let started ← unixNanos world
  let cgroup ← cgroupOf world
  modify fun session =>
    { session with sessionId := sessionName started pid, cgroupPath := args.launchCgroup.or cgroup }
  startMode world args limit
  let symbolizer ← symbolizerForProcess world
  ask world (.startWriter symbolizer)
  modify fun session => { session with firstSymbolizer := symbolizer, calls := [] }
  startCollectors world args
  match args.resumePid with
  | some pid => ask world (.continueTarget pid)
  | none => pure ()
  startDeadline world args
  readIdentityAndMaps world

/-- `record`; each of its loops is observed for `limit` turns. -/
def record (limit : ℕ) : Recording ω Unit := do
  startRecording world args limit
  Attempt.turns .unfinished (windowTurn world args limit) limit
  callWriter world .finish

/-- The session of a target that was resolved and inspected. -/
def Session.start (outside : ω) (resolver : TargetResolver) (inspection : Inspection) : Session ω where
  outside := outside
  pid := resolver.last.pid
  preflight := { inspection with target := resolver.last.metadata }
  resolver := resolver

end

end Recorder

end RustProfile
