import RustProfile.Ints
import RustProfile.Profile
import RustProfile.Lib.Capped

/-!
# The off-CPU collector

The kernel program `off_cpu.bpf.c` emits switch events of the threads in its
`tracked_tids` map. The collector queues them, pairs a switch-out with the next
switch-in of its thread, and splits intervals that cross a window boundary.
-/

namespace RustProfile

/-! ## The kernel program -/

inductive SwitchKind where
  | switchOut
  | switchIn
  deriving DecidableEq, Repr

/-- An event record; a switch-out is followed by the words of its stack. -/
structure SwitchEvent where
  kind : SwitchKind
  pid : UInt32
  tid : UInt32
  timestamp : ℕ
  stackLen : ℤ := 0
  ips : List UInt64 := []
  deriving DecidableEq, Repr

structure OffCpuStats where
  ringbufDrops : ℕ := 0
  stackFailures : ℕ := 0
  deriving DecidableEq, Repr, Inhabited

/-- A hit of the `sched_switch` tracepoint: the two threads, what the clock
reads for each, the stack of the first and whether the ring has room. -/
structure SwitchHit where
  prevTid : UInt32
  nextTid : UInt32
  outTimestamp : ℕ
  inTimestamp : ℕ
  stack : Option (List UInt64) := none
  reserveOut : Bool := true
  reserveIn : Bool := true

structure OffCpuBpf where
  trackedTids : Table UInt32 UInt32
  events : List SwitchEvent
  stats : OffCpuStats

def trackedTidsMax : ℕ := 65536

namespace OffCpuBpf

def loaded : OffCpuBpf where
  trackedTids := ∅
  events := []
  stats := {}

def countRingbufDrop (self : OffCpuBpf) : OffCpuBpf :=
  { self with stats := { self.stats with ringbufDrops := self.stats.ringbufDrops + 1 } }

def emitSwitchIn (self : OffCpuBpf) (hit : SwitchHit) (pid tid : UInt32) : OffCpuBpf :=
  if hit.reserveIn then
    let event : SwitchEvent := { kind := .switchIn, pid := pid, tid := tid, timestamp := hit.inTimestamp }
    { self with events := self.events ++ [event] }
  else self.countRingbufDrop

def emitSwitchOut (self : OffCpuBpf) (hit : SwitchHit) (pid tid : UInt32) : OffCpuBpf :=
  if hit.reserveOut then
    let event : SwitchEvent := { kind := .switchOut, pid := pid, tid := tid, timestamp := hit.outTimestamp }
    match hit.stack with
    | some ips => { self with events := self.events ++ [{ event with stackLen := 8 * ips.length, ips := ips }] }
    | none =>
      { self with
        events := self.events ++ [event]
        stats := { self.stats with stackFailures := self.stats.stackFailures + 1 } }
  else self.countRingbufDrop

def schedSwitch (self : OffCpuBpf) (hit : SwitchHit) : OffCpuBpf :=
  let self := match self.trackedTids.lookup hit.prevTid with
    | some pid => self.emitSwitchOut hit pid hit.prevTid
    | none => self
  match self.trackedTids.lookup hit.nextTid with
  | some pid => self.emitSwitchIn hit pid hit.nextTid
  | none => self

/-- Update an entry of `tracked_tids`, unless the map is full. -/
def updateTracked (self : OffCpuBpf) (tid pid : UInt32) : Option OffCpuBpf :=
  if tid ∈ self.trackedTids ∨ self.trackedTids.size < trackedTidsMax then
    some { self with trackedTids := self.trackedTids.insert tid pid }
  else none

end OffCpuBpf

/-! ## The collector -/

structure PendingInterval where
  pid : UInt32
  started : ℕ
  stack : Stack
  deriving DecidableEq, Repr

structure OffCpuCollector where
  receiver : List SwitchEvent
  userspaceDrops : ℕ
  trackedTids : Table UInt32 UInt32
  pending : Table UInt32 PendingInterval
  samples : Table AttributedStack OffCpuValues
  maxStacks : ℕ
  maxThreads : ℕ
  previousStats : OffCpuStats
  switchOutEvents : ℕ
  completedIntervals : ℕ
  incompleteIntervals : ℕ
  aggregationDroppedEvents : ℕ

structure OffCpuWindowDiagnostics where
  switchOutEvents : ℕ
  completedIntervals : ℕ
  incompleteIntervals : ℕ
  nanoseconds : ℤ
  aggregationDroppedEvents : ℕ
  ringBufferDrops : ℕ
  deriving DecidableEq, Repr

/-- The name of thread `tid` of process `pid`, as `/proc` has it. -/
abbrev Comm := UInt32 → UInt32 → Option String

def offCpuQueueCapacity : ℕ := 4096

/-- The frames of a switch-out. -/
def SwitchEvent.frames (event : SwitchEvent) : List UInt64 :=
  (event.ips.take (min (event.stackLen.toNat / 8) 127)).filter (· ≠ 0)

namespace OffCpuCollector

def new (maxStacks maxThreads : ℕ) : OffCpuCollector where
  receiver := []
  userspaceDrops := 0
  trackedTids := ∅
  pending := ∅
  samples := ∅
  maxStacks := maxStacks
  maxThreads := maxThreads
  previousStats := {}
  switchOutEvents := 0
  completedIntervals := 0
  incompleteIntervals := 0
  aggregationDroppedEvents := 0

section
variable (self : OffCpuCollector)

/-- Stop tracking `tid` in the kernel, and give up its pending interval. -/
def dropThread (kernel : OffCpuBpf) (tid : UInt32) : OffCpuBpf × OffCpuCollector :=
  let kernel := { kernel with trackedTids := kernel.trackedTids.erase tid }
  match self.pending.lookup tid with
  | some _ =>
    (kernel, { self with
      pending := self.pending.erase tid
      incompleteIntervals := saturatingAddU64 self.incompleteIntervals 1 })
  | none => (kernel, self)

def applyThreads (kernel : OffCpuBpf) (current : Table UInt32 UInt32) (iter : IterOrder) :
    Except String (OffCpuBpf × OffCpuCollector) :=
  if current.size > self.maxThreads then
    .error s!"target has {current.size} threads, exceeding --max-threads={self.maxThreads}"
  else
    let updated := (iter.order current.entries).foldlM (fun (kernel : OffCpuBpf) entry =>
      if self.trackedTids.lookup entry.1 = some entry.2 then some kernel
      else kernel.updateTracked entry.1 entry.2) kernel
    match updated with
    | none => .error "tracked_tids is full"
    | some kernel =>
      -- The threads that are gone, in the order of the hash map.
      let left := iter.order (self.trackedTids.keys.filter (· ∉ current))
      let (kernel, self) := left.foldl (fun state tid => state.2.dropThread state.1 tid) (kernel, self)
      .ok (kernel, { self with trackedTids := current })

variable (comm : Comm)

/-- Add to an entry's values, or to a new entry's while there is room. -/
def aggregate (pid tid : UInt32) (stack : Stack) (elapsed : ℕ) (completed : Bool) : OffCpuCollector :=
  let key : AttributedStack := { stack := stack, pid := pid, tid := tid, threadName := comm pid tid }
  let add (value : OffCpuValues) : OffCpuValues :=
    { events := if completed then saturatingAddI64 value.events 1 else value.events
      nanoseconds := saturatingAddI64 value.nanoseconds (saturatingI64 elapsed) }
  match Capped.offer self.maxStacks {} add self.samples key with
  | some samples => { self with samples := samples }
  | none => { self with aggregationDroppedEvents := saturatingAddU64 self.aggregationDroppedEvents 1 }

def applySwitchOut (event : SwitchEvent) : OffCpuCollector :=
  let self := { self with switchOutEvents := saturatingAddU64 self.switchOutEvents 1 }
  if event.frames = [] then { self with incompleteIntervals := saturatingAddU64 self.incompleteIntervals 1 }
  else
    let interval : PendingInterval :=
      { pid := event.pid, started := event.timestamp, stack := Stack.ofAddresses event.frames }
    let incomplete := if event.tid ∈ self.pending then 1 else 0
    { self with
      pending := self.pending.insert event.tid interval
      incompleteIntervals := saturatingAddU64 self.incompleteIntervals incomplete }

def applySwitchIn (event : SwitchEvent) : OffCpuCollector :=
  match self.pending.lookup event.tid with
  | some interval =>
    let self := { self with
      pending := self.pending.erase event.tid
      completedIntervals := saturatingAddU64 self.completedIntervals 1 }
    self.aggregate comm interval.pid event.tid interval.stack (event.timestamp - interval.started) true
  | none => self

def apply (event : SwitchEvent) : OffCpuCollector :=
  match event.kind with
  | .switchOut => self.applySwitchOut event
  | .switchIn => self.applySwitchIn comm event

def receive (event : SwitchEvent) : OffCpuCollector :=
  if self.receiver.length < offCpuQueueCapacity then { self with receiver := self.receiver ++ [event] }
  else { self with userspaceDrops := self.userspaceDrops + 1 }

/-- Consume the whole ring, then apply what the channel took. -/
def drain (kernel : OffCpuBpf) : OffCpuCollector × OffCpuBpf :=
  let self := kernel.events.foldl receive self
  (self.receiver.foldl (apply · comm) { self with receiver := [] }, { kernel with events := [] })

/-- Charge a pending interval what it has run up to the boundary. -/
def chargePending (boundary : ℕ) (entry : Σ _ : UInt32, PendingInterval) : OffCpuCollector :=
  self.aggregate comm entry.2.pid entry.1 entry.2.stack (boundary - entry.2.started) false

/-- End every pending interval at the boundary and start it again there. -/
def splitPending (boundary : ℕ) (iter : IterOrder) : OffCpuCollector :=
  let pending := iter.order self.pending.entries
  let restarted := self.pending.mapValues fun interval => { interval with started := boundary }
  pending.foldl (chargePending · comm boundary) { self with pending := restarted }

/-- What a snapshot returns of the collector `self` that has been drained and split. -/
def windowDiagnostics (stats : OffCpuStats) (iter : IterOrder) : OffCpuWindowDiagnostics where
  switchOutEvents := self.switchOutEvents
  completedIntervals := self.completedIntervals
  incompleteIntervals :=
    saturatingAddU64 self.incompleteIntervals (stats.stackFailures - self.previousStats.stackFailures)
  nanoseconds :=
    (iter.order self.samples.entries).foldl (fun total entry => saturatingAddI64 total entry.2.nanoseconds) 0
  aggregationDroppedEvents := self.aggregationDroppedEvents
  ringBufferDrops := saturatingAddU64 (stats.ringbufDrops - self.previousStats.ringbufDrops) self.userspaceDrops

/-- A window's samples and its diagnostics. -/
abbrev Window := Table AttributedStack OffCpuValues × OffCpuWindowDiagnostics

/-- Drain, split at `boundary`, which the clock reads then, and start a new window. -/
def snapshotWindow (kernel : OffCpuBpf) (boundary : ℕ) (iter : IterOrder) :
    Window × OffCpuCollector × OffCpuBpf :=
  let (self, kernel) := self.drain comm kernel
  let self := self.splitPending comm boundary iter
  ((self.samples, self.windowDiagnostics kernel.stats iter),
    { self with
      userspaceDrops := 0
      previousStats := kernel.stats
      samples := ∅
      switchOutEvents := 0
      completedIntervals := 0
      incompleteIntervals := 0
      aggregationDroppedEvents := 0 }, kernel)

end

/-- Track the threads listed in `current` in a kernel program that has just been loaded. -/
def attach (current : Table UInt32 UInt32) (iter : IterOrder) (maxStacks maxThreads : ℕ) :
    Except String (OffCpuBpf × OffCpuCollector) := do
  let (kernel, self) ← (new maxStacks maxThreads).applyThreads .loaded current iter
  return (kernel, { self with previousStats := kernel.stats })

end OffCpuCollector

/-! ## The two together -/

structure OffCpuSystem where
  kernel : OffCpuBpf
  collector : OffCpuCollector

inductive OffCpuStep where
  | schedSwitch (hit : SwitchHit)
  | applyThreads (current : Table UInt32 UInt32) (iter : IterOrder)
  | drain (comm : Comm)
  | snapshotWindow (comm : Comm) (boundary : ℕ) (iter : IterOrder)

namespace OffCpuSystem

/-- A reconciliation that fails ends the recording. -/
def step (sys : OffCpuSystem) : OffCpuStep → Option OffCpuSystem
  | .schedSwitch hit => some { sys with kernel := sys.kernel.schedSwitch hit }
  | .applyThreads current iter =>
    match sys.collector.applyThreads sys.kernel current iter with
    | .ok (kernel, collector) => some ⟨kernel, collector⟩
    | .error _ => none
  | .drain comm =>
    let (collector, kernel) := sys.collector.drain comm sys.kernel
    some ⟨kernel, collector⟩
  | .snapshotWindow comm boundary iter =>
    let (_, collector, kernel) := sys.collector.snapshotWindow comm sys.kernel boundary iter
    some ⟨kernel, collector⟩

def window (sys : OffCpuSystem) (comm : Comm) (boundary : ℕ) (iter : IterOrder) : OffCpuCollector.Window :=
  (sys.collector.snapshotWindow comm sys.kernel boundary iter).1

end OffCpuSystem

end RustProfile
