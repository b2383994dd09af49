import RustProfile.CpuWindow

/-!
# Import windows

One window of `import::run`: the samples of a `perf.data` file that fall into it,
each with its stack, its thread and the time since the thread's last sample.
-/

namespace RustProfile

structure ImportArgs where
  maxStacks : ℕ
  firefoxProfile : Bool
  maxTimelineSamples : ℕ

/-- A sample record as it reaches its window. -/
structure ImportSample where
  stack : Stack
  pid : UInt32
  tid : UInt32
  name : Option String
  timestamp : ℕ
  delta : ℕ
  deriving DecidableEq, Repr

structure ImportWindow where
  samples : Table AttributedStack CpuValues := ∅
  stackInterner : Table Stack Stack := ∅
  timeline : List TimedStackSample := []
  totalSamples : ℕ := 0
  aggregationDroppedSamples : ℕ := 0
  timelineDroppedSamples : ℕ := 0

namespace ImportWindow

def internStack (self : ImportWindow) (stack : Stack) (maxStacks : ℕ) : Stack × ImportWindow :=
  match self.stackInterner.lookup stack with
  | some interned => (interned, self)
  | none =>
    if self.stackInterner.size < maxStacks then
      (stack, { self with stackInterner := self.stackInterner.insert stack stack })
    else (stack, self)

def aggregate (self : ImportWindow) (maxStacks : ℕ) (key : AttributedStack) (delta : ℕ) : ImportWindow :=
  let atCapacity := self.samples.size ≥ maxStacks
  match self.samples.lookup key with
  | some values => { self with samples := self.samples.insert key (values.add (saturatingI64 delta)) }
  | none =>
    if ¬ atCapacity then
      { self with samples := self.samples.insert key { samples := 1, nanoseconds := saturatingI64 delta } }
    else { self with aggregationDroppedSamples := saturatingAddU64 self.aggregationDroppedSamples 1 }

def recordTimeline (self : ImportWindow) (args : ImportArgs) (sample : ImportSample) (stack : Stack) : ImportWindow :=
  if args.firefoxProfile then
    if self.timeline.length < args.maxTimelineSamples then
      let timed : TimedStackSample :=
        { stack := stack, pid := sample.pid, tid := sample.tid, threadName := sample.name
          timestamp := sample.timestamp, cpuDelta := sample.delta }
      { self with timeline := self.timeline ++ [timed] }
    else { self with timelineDroppedSamples := saturatingAddU64 self.timelineDroppedSamples 1 }
  else self

/-- What `import::run` does with a sample once it has found the sample's window. -/
def add (args : ImportArgs) (self : ImportWindow) (sample : ImportSample) : ImportWindow :=
  let (stack, window) := self.internStack sample.stack args.maxStacks
  let key : AttributedStack := { stack := stack, pid := sample.pid, tid := sample.tid, threadName := sample.name }
  let window := { window with totalSamples := saturatingAddU64 window.totalSamples 1 }
  let window := window.aggregate args.maxStacks key sample.delta
  window.recordTimeline args sample stack

end ImportWindow

end RustProfile
