import RustProfile.CpuWindow
import RustProfile.Pprof

/-!
# The profiles of a window

What a window's profiles are written from, and which of the writers is called.
Collectors of a cgroup hand over raw profiles, which are written without a
symbolizer.
-/

namespace RustProfile

/-- Who is profiled. -/
structure TargetMetadata where
  pid : ℤ
  containerId : Option String := none
  containerName : Option String := none
  k8sNamespace : Option String := none
  k8sPodName : Option String := none
  k8sPodUid : Option String := none
  k8sContainerName : Option String := none
  k8sNodeName : Option String := none
  deriving DecidableEq, Repr

def profileLabels (target : TargetMetadata) : List (String × String) :=
  ("process.pid", toString target.pid) ::
    [("container.id", target.containerId), ("container.name", target.containerName),
      ("k8s.namespace.name", target.k8sNamespace), ("k8s.pod.name", target.k8sPodName),
      ("k8s.pod.uid", target.k8sPodUid), ("k8s.container.name", target.k8sContainerName),
      ("k8s.node.name", target.k8sNodeName)].filterMap fun label => label.2.map fun value => (label.1, value)

/-- Where the perf clock stood at a time of the calendar. -/
structure PerfClockAnchor where
  monotonicNanos : ℕ
  unixNanos : ℤ
  deriving DecidableEq, Repr

/-- The sum of two `i64` and `u64` values fits an `i128`; the result is checked as an `i64`,
against the window, and as a `u64`. -/
def PerfClockAnchor.toUnixNanos (self : PerfClockAnchor) (perfTimestamp : ℕ) (windowStarted windowEnded : ℤ) :
    Option ℕ :=
  let delta : ℤ := perfTimestamp - self.monotonicNanos
  let timestamp := self.unixNanos + delta
  if timestamp < -2 ^ 63 ∨ i64Max < timestamp then none
  else if timestamp < windowStarted ∨ timestamp > windowEnded then none
  else if timestamp < 0 then none
  else some timestamp.toNat

structure CpuOutput where
  samples : Table AttributedStack CpuValues
  frequency : CpuFrequency
  raw : Bool

structure HeapOutput where
  samples : Table Stack HeapValues
  allocationInterval : ℕ

structure OffCpuOutput where
  samples : Table AttributedStack OffCpuValues
  raw : Bool

/-- What the profiles of a window are written from; a recording takes `profileLabels` for the target labels. -/
structure WindowContents where
  cpu : Option CpuOutput := none
  heap : Option HeapOutput := none
  offCpu : Option OffCpuOutput := none
  timeline : List TimedStackSample := []
  timelineFrequency : CpuFrequency
  timelineRaw : Bool := false
  clockAnchor : PerfClockAnchor
  startedUnixNanos : ℤ
  durationNanos : ℤ
  targetLabels : List (String × String)

namespace WindowContents

variable (self : WindowContents) (iter : IterOrder) (symbolizer : Symbolizer)

/-- The CPU profile with the statistics that the diagnostics get. -/
def cpuProfile (output : CpuOutput) : ExportStats × Profile :=
  if output.raw then
    ({}, writeRawCpuProfile iter output.samples self.startedUnixNanos self.durationNanos
      (periodNanos output.frequency.hertz))
  else
    writeCpuProfile iter output.samples symbolizer self.startedUnixNanos self.durationNanos output.frequency.hertz
      self.targetLabels

def heapProfile (output : HeapOutput) : ExportStats × Profile :=
  writeHeapProfile iter output.samples symbolizer self.startedUnixNanos self.durationNanos output.allocationInterval
    self.targetLabels

def offCpuProfile (output : OffCpuOutput) : Profile :=
  if output.raw then writeRawOffCpuProfile iter output.samples self.startedUnixNanos self.durationNanos
  else
    (writeOffCpuProfile iter output.samples symbolizer self.startedUnixNanos self.durationNanos self.targetLabels).2

def endedUnixNanos : ℤ := saturatingAddI64 self.startedUnixNanos self.durationNanos

/-- The timestamps of the timeline samples, where they convert. -/
def timestamps : List (Option ℕ) :=
  self.timeline.map fun sample =>
    self.clockAnchor.toUnixNanos sample.timestamp self.startedUnixNanos self.endedUnixNanos

def timestampErrors : ℕ := (self.timestamps.filter (·.isNone)).length

/-- The timeline's profile with the timestamps of its samples. -/
def timelineProfile : Except String (Profile × List ℕ) :=
  match buildCpuTimelineProfile self.timeline self.timestamps (if self.timelineRaw then none else some symbolizer)
      self.startedUnixNanos self.durationNanos self.timelineFrequency.hertz self.targetLabels with
  | .ok (_, profile, encoded) => .ok (profile, encoded)
  | .error error => .error error

/-- The profiles that are exported besides the timeline; with a timeline the CPU profile is not. -/
def exported (wantsTimeline : Bool) : List Profile :=
  (if wantsTimeline then [] else (self.cpu.map fun output => (self.cpuProfile iter symbolizer output).2).toList) ++
    (self.heap.map fun output => (self.heapProfile iter symbolizer output).2).toList ++
    (self.offCpu.map fun output => self.offCpuProfile iter symbolizer output).toList

end WindowContents

end RustProfile
