import RustProfile.Output
import RustProfile.WindowProfiles
import RustProfile.Firefox
import RustProfile.Otlp

/-!
# A recorded window

What `record` makes of a window it has collected, what `submit` sheds of it when
the previous window is still being written, and what `write_inner` writes to the
files. The diagnostics are those that one of these reads or changes.
-/

namespace RustProfile

namespace Record

/-! ## The diagnostics -/

inductive ProfileKind where
  | cpu
  | heap
  | offCpu
  deriving DecidableEq, Repr

inductive OtlpExportStatus where
  | disabled
  | pending
  | exported
  | partlyExported
  | failed
  | dropped
  deriving DecidableEq, Repr

structure OtlpExportDiagnostics where
  status : OtlpExportStatus
  profiles : ℕ := 0
  attempts : ℕ := 0
  rejectedProfiles : ℤ := 0
  timelineEnabled : Bool := false
  timelineSamples : ℕ := 0
  timelineDroppedSamples : ℕ := 0
  timelineTimestampErrors : ℕ := 0
  error : Option String := none
  deriving DecidableEq, Repr

structure FirefoxOutputDiagnostics where
  enabled : Bool
  format : Option String
  samples : ℕ
  droppedSamples : ℕ
  error : Option String
  deriving DecidableEq, Repr

structure OutputBackpressureDiagnostics where
  derivedOutputsShed : Bool := false
  pendingWindows : ℕ := 0
  filesSkipped : ℕ := 0
  otlpSkipped : Bool := false
  deriving DecidableEq, Repr

structure LocationDiagnostics where
  symbolizedLocations : ℕ := 0
  totalLocations : ℕ := 0
  deriving DecidableEq, Repr

structure WindowDiagnostics where
  schemaVersion : ℕ := 3
  target : TargetMetadata
  startedUnixNanos : ℤ
  endedUnixNanos : ℤ
  profilesWritten : List ProfileKind
  cpu : LocationDiagnostics := {}
  heap : LocationDiagnostics := {}
  timelineEventsDropped : ℕ
  firefox : FirefoxOutputDiagnostics
  mappingsLoaded : ℕ := 0
  outputBackpressure : OutputBackpressureDiagnostics := {}
  otlp : OtlpExportDiagnostics
  outputs : List SessionFile
  warnings : List String
  deriving DecidableEq, Repr

/-! ## The window -/

structure WindowOutput where
  cpu : Option (ProfileOutput × CpuOutput)
  heap : Option (ProfileOutput × HeapOutput)
  offCpu : Option (ProfileOutput × OffCpuOutput)
  firefox : Option (SessionFile × FirefoxProfileFormat)
  timeline : List TimedStackSample
  timelineFrequency : CpuFrequency
  timelineRaw : Bool
  otlpTimeline : Bool
  clockAnchor : PerfClockAnchor
  diagnosticsPath : SessionFile
  diagnostics : WindowDiagnostics
  startedUnixNanos : ℤ
  durationNanos : ℤ
  targetLabels : List (String × String)
  executable : String
  exportOtlp : Bool

structure RecordArgs extends OutputArgs where
  pid : ℤ
  cpuFrequency : CpuFrequency
  allocInterval : ℕ
  maxStacks : ℕ
  maxThreads : ℕ
  maxTimelineSamples : ℕ

/-- The window that the samples are ingested into. -/
def RecordArgs.freshWindow (args : RecordArgs) : CpuWindow :=
  .new args.pid args.maxStacks args.maxThreads (args.firefoxProfile.isSome || args.otlpTimeline) args.maxTimelineSamples

/-- The window holds what calls of `ingest_cpu_batch` added to a fresh one, with its counts in range. -/
structure Ingested (fresh window : CpuWindow) : Prop where
  calls : ∃ (δ ω : Type) (comm : CommReader ω) (world : ω) (calls : List (IngestCall δ)),
    window = (ingestCpuBatches comm fresh world calls).1
  bounded : window.totalSamples ≤ u64Max

/-- What the collectors hand over at the end of a window. -/
structure WindowData where
  index : ℕ
  cpuWindow : CpuWindow
  heapProfile : Option (Table Stack HeapValues)
  offCpuProfile : Option (Table AttributedStack OffCpuValues)
  clockAnchor : PerfClockAnchor
  startedUnixNanos : ℤ
  endedUnixNanos : ℤ
  cgroup : Bool
  target : TargetMetadata
  executable : String
  warnings : List String

structure CollectedWindow (args : RecordArgs) extends WindowData where
  ingested : Ingested args.freshWindow cpuWindow

def formatName : FirefoxProfileFormat → String
  | .json => "json"
  | .jslb => "jslb"

/-- A profile's outputs, and what they are made from. -/
def profileOutput {α : Type} (args : RecordArgs) (index : ℕ) (kind svg : FileKind) (contents : α) : ProfileOutput × α :=
  ((⟨kind, index⟩, if args.svg then some ⟨svg, index⟩ else none), contents)

def outputFiles {α : Type} (output : Option (ProfileOutput × α)) : List SessionFile :=
  profileFiles (output.map Prod.fst)

section
variable (args : RecordArgs) (collected : WindowData)

def firefoxDiagnostics : FirefoxOutputDiagnostics where
  enabled := args.firefoxProfile.isSome
  format := args.firefoxProfile.map formatName
  samples := if args.firefoxProfile.isSome then collected.cpuWindow.timelineSamples else 0
  droppedSamples := if args.firefoxProfile.isSome then collected.cpuWindow.timelineDropped else 0
  error := none

def otlpDiagnostics : OtlpExportDiagnostics :=
  if args.otlp then
    { status := .pending
      timelineEnabled := args.otlpTimeline
      timelineDroppedSamples := if args.otlpTimeline then collected.cpuWindow.timelineDropped else 0 }
  else { status := .disabled }

/-- What `record` submits for the window. -/
def windowOutput : WindowOutput :=
  let cpu :=
    if args.cpu then
      some (profileOutput args collected.index .cpu .cpuSvg
        { samples := collected.cpuWindow.samples, frequency := args.cpuFrequency, raw := collected.cgroup : CpuOutput })
    else none
  let heap := collected.heapProfile.map fun profile =>
    profileOutput args collected.index .heap .heapSvg
      { samples := profile, allocationInterval := args.allocInterval : HeapOutput }
  let offCpu := collected.offCpuProfile.map fun profile =>
    profileOutput args collected.index .offCpu .offCpuSvg { samples := profile, raw := collected.cgroup : OffCpuOutput }
  let firefox := args.firefoxProfile.map fun format =>
    (({ kind := .firefox format, window := collected.index } : SessionFile), format)
  let diagnosticsPath : SessionFile := { kind := .diagnostics, window := collected.index }
  { cpu := cpu
    heap := heap
    offCpu := offCpu
    firefox := firefox
    timeline := collected.cpuWindow.timeline
    timelineFrequency := args.cpuFrequency
    timelineRaw := collected.cgroup
    otlpTimeline := args.otlpTimeline
    clockAnchor := collected.clockAnchor
    diagnosticsPath := diagnosticsPath
    diagnostics :=
      { target := collected.target
        startedUnixNanos := collected.startedUnixNanos
        endedUnixNanos := collected.endedUnixNanos
        profilesWritten := (cpu.map fun _ => ProfileKind.cpu).toList ++ (heap.map fun _ => ProfileKind.heap).toList ++
          (offCpu.map fun _ => ProfileKind.offCpu).toList
        timelineEventsDropped := collected.cpuWindow.timelineDropped
        firefox := firefoxDiagnostics args collected
        otlp := otlpDiagnostics args collected
        outputs := outputFiles cpu ++ outputFiles heap ++ outputFiles offCpu ++ (firefox.map Prod.fst).toList ++
          [diagnosticsPath]
        warnings := collected.warnings }
    startedUnixNanos := collected.startedUnixNanos
    durationNanos := max (-2 ^ 63) (min (collected.endedUnixNanos - collected.startedUnixNanos) i64Max)
    targetLabels := profileLabels collected.target
    executable := collected.executable
    exportOtlp := true }

end

def recordWindow (args : RecordArgs) (collected : CollectedWindow args) : WindowOutput :=
  windowOutput args collected.toWindowData

/-! ## Shedding -/

/-- `svg.take()` of an output. -/
def takeSvg {α : Type} : Option (ProfileOutput × α) → List SessionFile × Option (ProfileOutput × α)
  | some ((path, svg), contents) => (svg.toList, some ((path, none), contents))
  | none => ([], none)

namespace WindowOutput

section
variable (self : WindowOutput)

def takeFirefox : List SessionFile × WindowOutput :=
  match self.firefox with
  | some (path, _) =>
    ([path], { self with
      firefox := none
      diagnostics := { self.diagnostics with
        firefox := { self.diagnostics.firefox with
          droppedSamples := saturatingAddU64 self.diagnostics.firefox.droppedSamples self.timeline.length
          error := some "Firefox output skipped because the previous window was still being written" } } })
  | none => ([], self)

def skipOtlp : Bool × WindowOutput :=
  if self.exportOtlp ∧ self.diagnostics.otlp.status ≠ .disabled then
    (true, { self with
      exportOtlp := false
      diagnostics := { self.diagnostics with
        otlp := { self.diagnostics.otlp with
          status := .dropped
          error := some "OTLP output skipped because the previous window was still being written" } } })
  else (false, self)

/-- Nothing is left to write the timeline to. -/
def clearTimeline : WindowOutput :=
  if self.firefox = none ∧ (self.exportOtlp = false ∨ self.diagnostics.otlp.status = .disabled) then
    { self with timeline := [] }
  else self

def countShed (removed : Finset SessionFile) (pendingWindows : ℕ) : WindowOutput :=
  { self with
    diagnostics := { self.diagnostics with
      outputBackpressure :=
        { derivedOutputsShed := true
          pendingWindows := pendingWindows
          filesSkipped := removed.card
          otlpSkipped := !self.exportOtlp }
      outputs := self.diagnostics.outputs.filter (· ∉ removed)
      warnings := self.diagnostics.warnings ++
        ["derived outputs were shed to keep continuous collection ahead of output backpressure"] } }

def shedDerivedOutputs (pendingWindows : ℕ) : WindowOutput :=
  let (cpuSvg, cpu) := takeSvg self.cpu
  let (heapSvg, heap) := takeSvg self.heap
  let (offCpuSvg, offCpu) := takeSvg self.offCpu
  let (firefox, self) := { self with cpu := cpu, heap := heap, offCpu := offCpu }.takeFirefox
  let removed := (cpuSvg ++ heapSvg ++ offCpuSvg ++ firefox).toFinset
  let (otlp, self) := self.skipOtlp
  let self := self.clearTimeline
  if removed ≠ ∅ ∨ otlp then self.countShed removed pendingWindows else self

end

end WindowOutput

/-! ## Writing -/

inductive FlameValue where
  | nanoseconds
  | bytes
  deriving DecidableEq, Repr

inductive FileContents where
  | profile (profile : Profile)
  | flameGraph (profile : Profile) (valueIndex : ℕ) (title : String) (value : FlameValue)
  | firefox (format : FirefoxProfileFormat) (profile : FirefoxProfile)
  | diagnostics (diagnostics : WindowDiagnostics)

structure ExportJob where
  payload : Otlp.ExportPayload
  diagnosticsPath : SessionFile
  diagnostics : WindowDiagnostics

/-- What a window is written with. The exporter is configured exactly if `otlp` is; `encode`
is `encode_profiles` with the target, the configuration and the mapping hashes. -/
structure WriteContext where
  iter : IterOrder
  symbolizer : FirefoxSymbolizer
  jitMappingCount : ℕ
  otlp : Bool
  keepWindows : ℕ
  encode : List Profile → Option (Profile × List ℕ) → Except String Otlp.ExportPayload

/-- The executable's file name. -/
def processName (executable : String) : String :=
  match ((executable.splitOn "/").filter fun name => name ≠ "" ∧ name ≠ ".").getLast? with
  | some name => if name = ".." then "profiled process" else name
  | none => "profiled process"

/-- One fallible part of a write, with what it puts into its file. -/
inductive Part where
  | file (path : SessionFile) (contents : FileContents)
  | timeline (failed : Bool)

namespace WindowOutput

section
variable (self : WindowOutput)

def contents : WindowContents where
  cpu := self.cpu.map Prod.snd
  heap := self.heap.map Prod.snd
  offCpu := self.offCpu.map Prod.snd
  timeline := self.timeline
  timelineFrequency := self.timelineFrequency
  timelineRaw := self.timelineRaw
  clockAnchor := self.clockAnchor
  startedUnixNanos := self.startedUnixNanos
  durationNanos := self.durationNanos
  targetLabels := self.targetLabels

variable (context : WriteContext)

def wantsOtlp : Bool := context.otlp && self.exportOtlp

def wantsTimeline : Bool := self.wantsOtlp context && self.otlpTimeline

/-- The timeline's profile, if it is exported and can be built. -/
def timelineProfile : Option (Profile × List ℕ) :=
  if self.wantsTimeline context then
    match self.contents.timelineProfile context.symbolizer.toSymbolizer with
    | .ok timeline => some timeline
    | .error _ => none
  else none

/-- The profiles that are encoded with the timeline; they are collected only for an export. -/
def profiles : List Profile :=
  if self.wantsOtlp context then
    self.contents.exported context.iter context.symbolizer.toSymbolizer self.otlpTimeline
  else []

def cpuProfile (output : CpuOutput) : ExportStats × Profile :=
  self.contents.cpuProfile context.iter context.symbolizer.toSymbolizer output

def heapProfile (output : HeapOutput) : ExportStats × Profile :=
  self.contents.heapProfile context.iter context.symbolizer.toSymbolizer output

def offCpuProfile (output : OffCpuOutput) : Profile :=
  self.contents.offCpuProfile context.iter context.symbolizer.toSymbolizer output

/-- `None` where there is nothing to export. -/
def payload : Option (Except String Otlp.ExportPayload) :=
  if self.wantsOtlp context then some (context.encode (self.profiles context) (self.timelineProfile context)) else none

def locations (stats : ExportStats) : LocationDiagnostics where
  symbolizedLocations := stats.symbolizedLocations
  totalLocations := stats.totalLocations

/-- The OTLP diagnostics once the payload is encoded. -/
def encodedOtlp : OtlpExportDiagnostics :=
  let otlp := self.diagnostics.otlp
  let otlp :=
    match self.timelineProfile context with
    | some (_, encoded) =>
      { otlp with timelineSamples := encoded.length, timelineTimestampErrors := self.contents.timestampErrors }
    | none => otlp
  match self.payload context with
  | some (.ok payload) => { otlp with profiles := payload.profiles }
  | some (.error error) => { otlp with status := .failed, error := some ("OTLP encoding failed: " ++ error) }
  | none => otlp

/-- The diagnostics as they are written. -/
def writtenDiagnostics : WindowDiagnostics :=
  { self.diagnostics with
    cpu := self.cpu.elim self.diagnostics.cpu fun output => locations (self.cpuProfile context output.2).1
    heap := self.heap.elim self.diagnostics.heap fun output => locations (self.heapProfile context output.2).1
    mappingsLoaded := context.jitMappingCount
    otlp := self.encodedOtlp context }

/-- A profile and its flame graph. -/
def profileParts (output : ProfileOutput) (profile : Profile) (valueIndex : ℕ) (title : String) (value : FlameValue) :
    List Part :=
  .file output.1 (.profile profile) ::
    output.2.toList.map fun svg => .file svg (.flameGraph profile valueIndex title value)

def firefoxProfile : FirefoxProfile := self.contents.firefoxProfile (processName self.executable) context.symbolizer

/-- The parts of the write, in turn. -/
def parts : List Part :=
  (self.cpu.elim [] fun output =>
      profileParts output.1 (self.cpuProfile context output.2).2 1 "CPU flame graph" .nanoseconds) ++
    (self.heap.elim [] fun output =>
      profileParts output.1 (self.heapProfile context output.2).2 3 "Heap in-use flame graph" .bytes) ++
    (self.offCpu.elim [] fun output =>
      profileParts output.1 (self.offCpuProfile context output.2) 1 "Off-CPU flame graph" .nanoseconds) ++
    (if self.wantsTimeline context then [.timeline (self.timelineProfile context).isNone] else []) ++
    (self.firefox.elim [] fun output =>
      [.file output.1 (.firefox output.2 (self.firefoxProfile context))]) ++
    [.file self.diagnosticsPath (.diagnostics (self.writtenDiagnostics context))]

def job : Option ExportJob :=
  match self.payload context with
  | some (.ok payload) =>
    some { payload := payload
           diagnosticsPath := self.diagnosticsPath
           diagnostics := self.writtenDiagnostics context }
  | some (.error _) => none
  | none => none

end

end WindowOutput

section
variable (faults : Faults)

/-- Publish the parts in turn; the second result lists the files that got into place. -/
def publishParts : List Part → Disk → Except WriteError Unit × List (SessionFile × FileContents) × Disk
  | [], disk => (.ok (), [], disk)
  | .file path contents :: rest, disk =>
    match faults.write path with
    | .ok =>
      let (result, published, disk) := publishParts rest (insert path disk)
      (result, (path, contents) :: published, disk)
    | .unpublished => (.error (.publish path), [], disk)
    | .unsynced => (.error .syncDirectory, [(path, contents)], insert path disk)
  | .timeline failed :: rest, disk => if failed then (.error .timeline, [], disk) else publishParts rest disk

/-- The result of a write, the files it published and the session after it. -/
structure Written where
  result : Except WriteError (Option ExportJob)
  published : List (SessionFile × FileContents)
  session : OutputSession

def WindowOutput.writeInner (self : WindowOutput) (context : WriteContext) (session : OutputSession) : Written :=
  match publishParts faults (self.parts context) session.disk with
  | (.error error, published, disk) => ⟨.error error, published, { session with disk := disk }⟩
  | (.ok _, published, disk) =>
    match pruneSessionWindows faults context.keepWindows (session.retained ++ [self.diagnostics.outputs]) disk with
    | (.error error, session) => ⟨.error error, published, session⟩
    | (.ok _, session) => ⟨.ok (self.job context), published, session⟩

end

end Record

end RustProfile
