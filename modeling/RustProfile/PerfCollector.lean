import RustProfile.Lib.Run
import RustProfile.PerfRecord

/-!
# The CPU collector of a process

The kernel appends records to the rings of perf events, at any time. The
collector holds an event for each thread, a list of retired ones that are drained
once more and closed, and a list of threads to poll, which is as old as the last
reconciliation that succeeded.
-/

namespace RustProfile

/-- A record of a perf event. `event` and `number` tell records apart; nothing in the program reads them. -/
structure RingRecord where
  event : ℕ
  number : ℕ
  kind : UInt32
  body : List UInt8
  deriving DecidableEq

/-- What `PerfEvent::open` gives, and if it fails, whether the thread is gone. -/
inductive OpenOutcome where
  | opened
  | gone
  | failed (error : String)

/-- What `poll` gives; `revents` says which of the entries are ready. -/
inductive PollOutcome where
  | timeout
  | interrupted
  | ready (revents : List Bool)

/-- The events are held by their numbers. -/
structure PerfCollector where
  maxThreads : ℕ
  events : Table Int32 ℕ := ∅
  retiredEvents : List ℕ := []
  pollTids : List Int32 := []

/-- Where a call of `drain_into` or `wait_and_drain_into` is, with the records in its batch so far.
The call has `asked` threads, and has not come to `tids` of them. -/
inductive DrainPhase where
  | idle
  | retired (wait : Bool) (batch : List RingRecord)
  | dropping (wait : Bool) (event : ℕ) (batch : List RingRecord)
  | active (wait : Bool) (asked tids : List Int32) (batch : List RingRecord)

namespace DrainPhase

def batch : DrainPhase → List RingRecord
  | .idle => []
  | .retired _ batch => batch
  | .dropping _ _ batch => batch
  | .active _ _ _ batch => batch

/-- The retired event that the loop's variable owns. -/
def owned : DrainPhase → List ℕ
  | .dropping _ event _ => [event]
  | _ => []

end DrainPhase

/-- What has happened so far, in numbers of records appended: when each event was last drained and when it was
retired, and when the last call began. `lost` are the records in the rings of events that were closed. -/
structure PerfHistory where
  appended : List RingRecord := []
  drainedAt : ℕ → ℕ := fun _ => 0
  retiredAt : ℕ → Option ℕ := fun _ => none
  calledAt : ℕ := 0
  closed : List ℕ := []
  lost : List RingRecord := []
  batches : List (List RingRecord) := []

/-- A collector, the rings of the events that are open, and the number of the next event. -/
structure PerfSystem where
  collector : PerfCollector
  rings : Table ℕ (List RingRecord) := ∅
  nextEvent : ℕ := 0
  phase : DrainPhase := .idle
  history : PerfHistory := {}

inductive PerfStep where
  | append (event : ℕ) (kind : UInt32) (body : List UInt8)
  | reconcileThreadIds (threads : List Int32) (opens : Int32 → OpenOutcome) (iter : IterOrder)
  | drainInto
  | waitAndDrainInto
  | drainRetired
  | closeRetired
  | drainEvents (iter : IterOrder)
  | poll (outcome : PollOutcome)
  | drainActive

namespace PerfSystem

variable (self : PerfSystem)

def start (maxThreads : ℕ) : PerfSystem where
  collector := { maxThreads := maxThreads }

/-- The kernel writes a record to the ring of an open event. -/
def append (event : ℕ) (kind : UInt32) (body : List UInt8) : Option PerfSystem :=
  (self.rings.lookup event).map fun ring =>
    let record : RingRecord := { event := event, number := self.history.appended.length, kind := kind, body := body }
    { self with
      rings := self.rings.insert event (ring ++ [record])
      history := { self.history with appended := self.history.appended ++ [record] } }

/-! ## Reconciling -/

def retire (tid : Int32) : PerfSystem :=
  match self.collector.events.lookup tid with
  | some event =>
    { self with
      collector := { self.collector with
        events := self.collector.events.erase tid
        retiredEvents := self.collector.retiredEvents ++ [event] }
      history := { self.history with
        retiredAt := Function.update self.history.retiredAt event self.history.appended.length } }
  | none => self

def openEvent (tid : Int32) : PerfSystem :=
  { self with
    collector := { self.collector with events := self.collector.events.insert tid self.nextEvent }
    rings := self.rings.insert self.nextEvent []
    nextEvent := self.nextEvent + 1 }

/-- Open events for new threads, up to the first that fails. -/
def openThreads (opens : Int32 → OpenOutcome) : List Int32 → PerfSystem → Option String × PerfSystem
  | [], self => (none, self)
  | tid :: tids, self =>
    if tid ∈ self.collector.events then openThreads opens tids self
    else match opens tid with
      | .opened => openThreads opens tids (self.openEvent tid)
      | .gone => openThreads opens tids self
      | .failed error => (some ("failed to open CPU sampler for thread " ++ toString tid ++ ": " ++ error), self)

def rebuildPollFds (iter : IterOrder) : PerfSystem :=
  { self with collector := { self.collector with pollTids := iter.order self.collector.events.keys } }

def tooManyThreads (threads maxThreads : ℕ) : String :=
  "target has " ++ toString threads ++ " threads, exceeding the configured maximum of " ++ toString maxThreads

/-- A reconciliation that fails keeps what it has done; the poll list stays as it was. -/
def reconcileThreadIds (threads : List Int32) (opens : Int32 → OpenOutcome) (iter : IterOrder) :
    Option String × PerfSystem :=
  if threads.length > self.collector.maxThreads then
    (some (tooManyThreads threads.length self.collector.maxThreads), self)
  else
    let retired := iter.order (self.collector.events.keys.filter (· ∉ threads))
    match openThreads opens threads (retired.foldl retire self) with
    | (none, self) => (none, self.rebuildPollFds iter)
    | (some error, self) => (some error, self)

/-! ## Draining -/

/-- Move all records of the event's ring to the end of the batch. -/
def drainEvent (event : ℕ) (batch : List RingRecord) : List RingRecord × PerfSystem :=
  (batch ++ (self.rings.lookup event).getD [],
    { self with
      rings := self.rings.insert event []
      history := { self.history with
        drainedAt := Function.update self.history.drainedAt event self.history.appended.length } })

def call (wait : Bool) : PerfSystem :=
  { self with
    phase := .retired wait []
    history := { self.history with calledAt := self.history.appended.length } }

/-- The ring is unmapped with what it holds. -/
def close (event : ℕ) : PerfSystem :=
  { self with
    rings := self.rings.erase event
    history := { self.history with
      closed := self.history.closed ++ [event]
      lost := self.history.lost ++ (self.rings.lookup event).getD [] } }

/-- The call returns its batch. -/
def returnBatch (batch : List RingRecord) : PerfSystem :=
  { self with
    phase := .idle
    history := { self.history with batches := self.history.batches ++ [batch] } }

/-- The next retired event is drained. It is dropped, and with that closed, in a step of its own. -/
def drainRetired (wait : Bool) (batch : List RingRecord) : Option PerfSystem :=
  match self.collector.retiredEvents with
  | [] => none
  | event :: retiredEvents =>
    let (batch, self) := self.drainEvent event batch
    some { self with
      collector := { self.collector with retiredEvents := retiredEvents }
      phase := .dropping wait event batch }

/-- Go on to the active events, unless nothing is polled or nothing is ready. -/
def poll (batch : List RingRecord) (outcome : PollOutcome) : PerfSystem :=
  if self.collector.pollTids = [] then self.returnBatch batch
  else match outcome with
    | .timeout => self.returnBatch batch
    | .interrupted => self.returnBatch batch
    | .ready revents =>
      let tids := ((revents.zip self.collector.pollTids).filter (·.1)).map (·.2)
      { self with phase := .active true tids tids batch }

/-- The next thread's event, if it has one still. When there are no more the call returns. -/
def drainActive (wait : Bool) (asked : List Int32) : List Int32 → List RingRecord → PerfSystem
  | [], batch => self.returnBatch batch
  | tid :: tids, batch =>
    match self.collector.events.lookup tid with
    | some event =>
      let (batch, self) := self.drainEvent event batch
      { self with phase := .active wait asked tids batch }
    -- the poll list can be older than the map
    | none => { self with phase := .active wait asked tids batch }

/-- The kernel appends at any time; each event is drained in a step of its own. -/
def step : PerfStep → Option PerfSystem
  | .append event kind body => self.append event kind body
  | .reconcileThreadIds threads opens iter =>
    match self.phase with
    | .idle => some (self.reconcileThreadIds threads opens iter).2
    | _ => none
  | .drainInto =>
    match self.phase with
    | .idle => some (self.call false)
    | _ => none
  | .waitAndDrainInto =>
    match self.phase with
    | .idle => some (self.call true)
    | _ => none
  | .drainRetired =>
    match self.phase with
    | .retired wait batch => self.drainRetired wait batch
    | _ => none
  | .closeRetired =>
    match self.phase with
    -- until here the kernel can still append to the ring, which nobody reads again
    | .dropping wait event batch => some { self.close event with phase := .retired wait batch }
    | _ => none
  | .drainEvents iter =>
    match self.phase with
    | .retired false batch =>
      if self.collector.retiredEvents = [] then
        -- `drain_into` goes through the map itself, `wait_and_drain_into` through the poll list
        let tids := iter.order self.collector.events.keys
        some { self with phase := .active false tids tids batch }
      else none
    | _ => none
  | .poll outcome =>
    match self.phase with
    | .retired true batch => if self.collector.retiredEvents = [] then some (self.poll batch outcome) else none
    | _ => none
  | .drainActive =>
    match self.phase with
    | .active wait asked tids batch => some (self.drainActive wait asked tids batch)
    | _ => none

/-- The batches returned, and the one that is being filled. -/
def delivered : List RingRecord := self.history.batches.flatten ++ self.phase.batch

/-- The event is held as a thread's or as retired. -/
def Holds (event : ℕ) : Prop :=
  (∃ tid, self.collector.events.lookup tid = some event) ∨ event ∈ self.collector.retiredEvents

end PerfSystem

end RustProfile
