import RustProfile.Event
import RustProfile.Lib.Table

/-!
# The CPU window

`ingestCpuBatch` reorders the samples of a batch, decides which stacks are
usable, attributes them to a thread and adds them to the window. The contents of
`/proc/<pid>/task/<tid>/comm` and the DWARF unwinder are outside the repository:
each is a state and a function that reads it.
-/

namespace RustProfile

open Queues

/-! ## What a batch is ingested with -/

/-- Reads of a thread's `comm` file in a world `ω`; a read can fail. -/
structure CommReader (ω : Type) where
  read : ω → UInt32 → UInt32 → Option String × ω

/-- The sampling frequency, in the range that the command line accepts. -/
structure CpuFrequency where
  hertz : ℕ
  inRange : 1 ≤ hertz ∧ hertz ≤ 999

def exampleFrequency : CpuFrequency := ⟨99, by decide⟩

structure IngestContext (δ : Type) where
  dwarf : Option (UnwindBytes δ)
  executableRanges : ExecutableRanges
  allowPartial : Bool
  frequency : CpuFrequency

structure PerfBatch where
  samples : List PerfSample
  lostSamples : ℕ
  malformedRecords : ℕ

/-- `char::is_whitespace`. -/
def isWhitespace (c : Char) : Bool :=
  let n := c.toNat
  (9 ≤ n && n ≤ 13) || n == 0x20 || n == 0x85 || n == 0xA0 || n == 0x1680 || (0x2000 ≤ n && n ≤ 0x200A) ||
    n == 0x2028 || n == 0x2029 || n == 0x202F || n == 0x205F || n == 0x3000

/-- `str::trim_end`. -/
def trimEnd (s : String) : String := String.ofList (s.toList.reverse.dropWhile isWhitespace).reverse

/-! ## Usable stacks -/

inductive SampleFrames where
  | usable (frames : List UInt64) (truncated : Bool)
  | rejected
  | fatal (message : String)
  deriving DecidableEq, Repr

namespace IngestContext

variable {δ : Type} (context : IngestContext δ)

def framePointerFrames (frames : List UInt64) : SampleFrames :=
  let valid := (frames.filter context.executableRanges.contains).length
  if valid ≠ frames.length ∨ frames = [] ∨ hasAddressCycle frames then .rejected
  else .usable frames (frames.length = defaultMaxFrames)

def fatalMessage (error : Option String) : String :=
  "address normalization could not safely resolve aarch64 PAC/TBI data: " ++ error.getD "ambiguous code address"

def dwarfFrames (unwinder : δ) (snapshot : StackSnapshot) : SampleFrames × δ :=
  match context.dwarf with
  | some dwarf =>
    let (outcome, unwinder) := dwarf.unwindBytes unwinder snapshot.registers snapshot.bytes
    if outcome.fatal then (.fatal (fatalMessage outcome.error), unwinder)
    else if outcome.frames = [] ∨ (!context.allowPartial ∧ outcome.frames.length = 1 ∧ outcome.error.isSome) then
      (.rejected, unwinder)
    else (.usable outcome.frames outcome.truncated, unwinder)
  | none =>
    if context.allowPartial ∧ snapshot.registers.ip ≠ 0 then (.usable [snapshot.registers.ip] false, unwinder)
    else (.rejected, unwinder)

def sampleFrames (unwinder : δ) : PerfSampleData → SampleFrames × δ
  | .framePointer frames => (context.framePointerFrames frames, unwinder)
  | .dwarf snapshot => context.dwarfFrames unwinder snapshot

def period (sample : PerfSample) : ℕ :=
  if sample.period = 0 then 1000000000 / max context.frequency.hertz 1 else sample.period

end IngestContext

/-! ## The window -/

def CpuValues.add (values : CpuValues) (period : ℤ) : CpuValues where
  samples := saturatingAddI64 values.samples 1
  nanoseconds := saturatingAddI64 values.nanoseconds period

structure CpuWindow where
  samples : Table AttributedStack CpuValues := ∅
  stackInterner : Table Stack Stack := ∅
  fallbackPid : UInt32
  maxStacks : ℕ
  maxThreadAttributions : ℕ
  timelineEnabled : Bool
  maxTimelineSamples : ℕ
  timeline : List TimedStackSample := []
  timelineSamples : ℕ := 0
  timelineDropped : ℕ := 0
  threadNames : Table (UInt32 × UInt32) (Option String) := ∅
  threadAttributionDroppedSamples : ℕ := 0
  totalSamples : ℕ := 0
  usableSamples : ℕ := 0
  lostSamples : ℕ := 0
  malformedSamples : ℕ := 0
  truncatedSamples : ℕ := 0
  invalidAddresses : ℕ := 0
  aggregationDroppedSamples : ℕ := 0
  aggregationDroppedNanoseconds : ℤ := 0
  depthSum : ℕ := 0

namespace CpuWindow

def new (pid : ℤ) (maxStacks maxThreadAttributions : ℕ) (timelineEnabled : Bool) (maxTimelineSamples : ℕ) :
    CpuWindow where
  fallbackPid := if 0 ≤ pid then UInt32.ofNat pid.toNat else 0
  maxStacks := maxStacks
  maxThreadAttributions := maxThreadAttributions
  timelineEnabled := timelineEnabled
  maxTimelineSamples := maxTimelineSamples

/-- How a sample's stack moves `invalidAddresses`. -/
def countInvalid {δ : Type} (context : IngestContext δ) (self : CpuWindow) (data : PerfSampleData)
    (frames : SampleFrames) : CpuWindow :=
  match data with
  | .framePointer addresses =>
    let valid := (addresses.filter context.executableRanges.contains).length
    { self with invalidAddresses := saturatingAddU64 self.invalidAddresses (addresses.length - valid) }
  | .dwarf _ =>
    -- a walk counts as one address, however many it found
    if frames = .rejected then { self with invalidAddresses := self.invalidAddresses + 1 } else self

def threadName {ω : Type} (comm : CommReader ω) (self : CpuWindow) (world : ω) (pid tid : UInt32) :
    Option String × CpuWindow × ω :=
  match self.threadNames.lookup (pid, tid) with
  | some name => (name, self, world)
  | none =>
    if self.threadNames.size ≥ self.maxThreadAttributions then
      (none, { self with
        threadAttributionDroppedSamples := saturatingAddU64 self.threadAttributionDroppedSamples 1 }, world)
    else
      let (contents, world) := comm.read world pid tid
      let name := (contents.map trimEnd).filter fun name => name ≠ ""
      -- a failed read is remembered too
      (name, { self with threadNames := self.threadNames.insert (pid, tid) name }, world)

def internStack (self : CpuWindow) (stack : Stack) : Stack × CpuWindow :=
  match self.stackInterner.lookup stack with
  | some interned => (interned, self)
  | none =>
    if self.stackInterner.size < self.maxStacks then
      (stack, { self with stackInterner := self.stackInterner.insert stack stack })
    else (stack, self)

def recordTimeline (self : CpuWindow) (key : AttributedStack) (time : ℕ) (period : ℤ) : CpuWindow :=
  if self.timelineEnabled then
    let self := { self with timelineSamples := saturatingAddU64 self.timelineSamples 1 }
    if self.timeline.length < self.maxTimelineSamples then
      let timed : TimedStackSample :=
        { stack := key.stack, pid := key.pid, tid := key.tid, threadName := key.threadName
          timestamp := time, cpuDelta := period.toNat }
      { self with timeline := self.timeline ++ [timed] }
    else { self with timelineDropped := saturatingAddU64 self.timelineDropped 1 }
  else self

def aggregate (self : CpuWindow) (key : AttributedStack) (period : ℤ) (depth : ℕ) : CpuWindow :=
  let atCapacity := self.samples.size ≥ self.maxStacks
  let keep (values : CpuValues) : CpuWindow :=
    { self with
      samples := self.samples.insert key (values.add period)
      -- a sample whose key finds no room is not counted as usable
      usableSamples := self.usableSamples + 1
      depthSum := saturatingAddU64 self.depthSum depth }
  match self.samples.lookup key with
  | some values => keep values
  | none =>
    if ¬ atCapacity then keep {}
    else
      { self with
        aggregationDroppedSamples := saturatingAddU64 self.aggregationDroppedSamples 1
        aggregationDroppedNanoseconds := saturatingAddI64 self.aggregationDroppedNanoseconds period }

end CpuWindow

/-! ## Ingesting -/

/-- What the loop of `ingest_cpu_batch` carries. -/
structure Ingesting (δ ω : Type) where
  window : CpuWindow
  unwinder : δ
  world : ω

section
variable {δ ω : Type} (context : IngestContext δ) (comm : CommReader ω)

/-- The part of the loop body after the stack was found usable. -/
def ingestUsable (st : Ingesting δ ω) (sample : PerfSample) (frames : List UInt64) (truncated : Bool) :
    Ingesting δ ω :=
  let window := if truncated then { st.window with truncatedSamples := st.window.truncatedSamples + 1 } else st.window
  let (stack, window) := window.internStack (Stack.ofAddresses frames)
  let period := saturatingI64 (context.period sample)
  let pid := if sample.pid = 0 then window.fallbackPid else sample.pid
  let (threadName, window, world) := window.threadName comm st.world pid sample.tid
  let key : AttributedStack := { stack := stack, pid := pid, tid := sample.tid, threadName := threadName }
  let window := window.recordTimeline key sample.time period
  { st with window := window.aggregate key period frames.length, world := world }

/-- One turn of the loop; `some` message leaves it. -/
def ingestSample (st : Ingesting δ ω) (sample : PerfSample) : Ingesting δ ω × Option String :=
  let window := { st.window with totalSamples := st.window.totalSamples + 1 }
  let (frames, unwinder) := context.sampleFrames st.unwinder sample.data
  let st := { st with window := window.countInvalid context sample.data frames, unwinder := unwinder }
  match frames with
  | .fatal message => (st, some message)
  | .rejected => (st, none)
  | .usable frames truncated => (ingestUsable context comm st sample frames truncated, none)

def ingestSamples (st : Ingesting δ ω) : List PerfSample → Ingesting δ ω × Option String
  | [] => (st, none)
  | sample :: samples =>
    match ingestSample context comm st sample with
    | (st, none) => ingestSamples st samples
    | (st, some message) => (st, some message)

end

/-- A call of `ingest_cpu_batch`: all its arguments but the window. -/
structure IngestCall (δ : Type) where
  context : IngestContext δ
  unwinder : δ
  sorter : PerfEventSorter
  batch : PerfBatch
  flush : Bool

section
variable {δ ω : Type} (comm : CommReader ω)

def CpuWindow.countLost (self : CpuWindow) (batch : PerfBatch) : CpuWindow :=
  { self with
    lostSamples := saturatingAddU64 self.lostSamples batch.lostSamples
    malformedSamples := saturatingAddU64 self.malformedSamples batch.malformedRecords }

/-- The samples that the sorter hands out for the batch. -/
def IngestCall.ready (call : IngestCall δ) : List PerfSample × PerfEventSorter :=
  let pushed := call.sorter.pushAll call.batch.samples
  if call.flush then
    let flushed := pushed.2.flush
    (pushed.1 ++ flushed.1, flushed.2)
  else pushed

/-- The window, unwinder and world after the call, the sorter and the error. -/
def ingestCpuBatch (window : CpuWindow) (world : ω) (call : IngestCall δ) :
    Ingesting δ ω × PerfEventSorter × Option String :=
  let st : Ingesting δ ω := { window := window.countLost call.batch, unwinder := call.unwinder, world := world }
  let result := ingestSamples call.context comm st call.ready.1
  (result.1, call.ready.2, result.2)

/-- Calls that ingest into one window, up to the first that fails. -/
def ingestCpuBatches (window : CpuWindow) (world : ω) : List (IngestCall δ) → CpuWindow × ω
  | [] => (window, world)
  | call :: calls =>
    let result := ingestCpuBatch comm window world call
    match result.2.2 with
    | none => ingestCpuBatches result.1.window result.1.world calls
    | some _ => (result.1.window, result.1.world)

end

end RustProfile
