import RustProfile.CpuWindow

/-!
# The CPU collector of a cgroup

One collector for each process of the cgroup, each with a sorter of its own. A
reconciliation retires the collectors of processes that are gone; the next
ingestion flushes those and forgets them. What the kernel answers is a parameter
of each call.
-/

namespace RustProfile

structure CgroupArgs where
  pid : Int32
  maxThreads : ℕ
  maxPendingEvents : ℕ
  eventReorderNanos : ℕ
  allowPartial : Bool
  frequency : CpuFrequency

/-! ## Snapshots -/

inductive ThreadsRead where
  | threads (tids : Finset Int32)
  | vanished
  | failed (error : String)

structure CgroupThreadSnapshot where
  threadsByPid : Table Int32 (Finset Int32) := ∅
  totalThreads : ℕ := 0

namespace CgroupThreadSnapshot

def read : List (Int32 × ThreadsRead) → CgroupThreadSnapshot → Except String CgroupThreadSnapshot
  | [], self => .ok self
  | (pid, .threads tids) :: listed, self =>
    read listed {
      threadsByPid := self.threadsByPid.insert pid tids
      totalThreads := saturatingAddU64 self.totalThreads tids.card }
  | (_, .vanished) :: listed, self => read listed self
  | (_, .failed error) :: _, _ => .error error

end CgroupThreadSnapshot

/-! ## One process -/

/-- What a process's stacks are checked and unwound with. -/
structure ProcessUnwind (δ : Type) where
  dwarf : Option (UnwindBytes δ)
  executableRanges : ExecutableRanges
  unwinder : δ

structure CpuProcessCollector (δ : Type) where
  pid : Int32
  unwind : ProcessUnwind δ
  sorter : PerfEventSorter

section
variable {δ ω : Type} (args : CgroupArgs) (comm : CommReader ω)

def CpuProcessCollector.ingest (self : CpuProcessCollector δ) (flush : Bool) (drained : Except String PerfBatch)
    (window : CpuWindow) (world : ω) : Option String × CpuProcessCollector δ × CpuWindow × ω :=
  match drained with
  | .error error => (some error, self, window, world)
  | .ok batch =>
    let (st, sorter, error) := ingestCpuBatch comm window world
      { context :=
          { dwarf := self.unwind.dwarf
            executableRanges := self.unwind.executableRanges
            allowPartial := args.allowPartial
            frequency := args.frequency }
        unwinder := self.unwind.unwinder
        sorter := self.sorter
        batch := batch
        flush := flush }
    (error, { self with unwind := { self.unwind with unwinder := st.unwinder }, sorter := sorter }, st.window, st.world)

def CpuProcessCollector.takeStats (self : CpuProcessCollector δ) : CpuProcessCollector δ :=
  { self with sorter := self.sorter.takeStats.2 }

/-- Ingest for one process after another, `drained` in the order of the processes, up to the first error. -/
def ingestEach (flush : Bool) : List (CpuProcessCollector δ) → List (Except String PerfBatch) → CpuWindow → ω →
    Option String × List (CpuProcessCollector δ) × CpuWindow × ω
  | [], _, window, world => (none, [], window, world)
  | process :: processes, drained, window, world =>
    let result := process.ingest args comm flush (drained.head?.getD (.ok ⟨[], 0, 0⟩)) window world
    match result.1 with
    | some error => (some error, result.2.1 :: processes, result.2.2)
    | none =>
      let rest := ingestEach flush processes drained.tail result.2.2.1 result.2.2.2
      (rest.1, result.2.1 :: rest.2.1, rest.2.2)

end

/-! ## The cgroup -/

/-- `CpuCollector::Cgroup`. -/
structure CpuCollector (δ : Type) where
  processes : Table Int32 (CpuProcessCollector δ) := ∅
  retired : List (CpuProcessCollector δ) := []

/-- What a reconciliation meets: what each collector's `reconcile` leaves, how new ones start, which processes exist. -/
structure ReconcileAnswers (δ : Type) where
  reconciled : Int32 → ProcessUnwind δ × Option String
  started : Int32 → Except String (ProcessUnwind δ)
  alive : Int32 → Bool

namespace CpuCollector

section
variable {δ ω : Type} (args : CgroupArgs) (comm : CommReader ω) (self : CpuCollector δ)

def perProcessPending : ℕ := max (args.maxPendingEvents / max args.maxThreads 1) 1

def retire (pid : Int32) : CpuCollector δ :=
  match self.processes.lookup pid with
  | some process => { processes := self.processes.erase pid, retired := self.retired ++ [process] }
  | none => self

def reconcileEach (answers : ReconcileAnswers δ) : List Int32 → Table Int32 (CpuProcessCollector δ) →
    Option String × Table Int32 (CpuProcessCollector δ)
  | [], processes => (none, processes)
  | pid :: pids, processes =>
    match processes.lookup pid with
    | some process =>
      let (unwind, error) := answers.reconciled pid
      let processes := processes.insert pid { process with unwind := unwind }
      if error.isSome ∧ answers.alive pid then (error, processes) else reconcileEach answers pids processes
    | none =>
      match answers.started pid with
      | .ok unwind =>
        reconcileEach answers pids (processes.insert pid
          { pid := pid, unwind := unwind, sorter := .new args.eventReorderNanos (perProcessPending args) })
      | .error error => if answers.alive pid then (some error, processes) else reconcileEach answers pids processes

def tooManyThreads (totalThreads limit : ℕ) : String :=
  "target cgroup has " ++ toString totalThreads ++ " threads, exceeding the bounded collector limit " ++ toString limit

def reconcileWithArgs (snapshot : CgroupThreadSnapshot) (answers : ReconcileAnswers δ) (iter : IterOrder) :
    Option String × CpuCollector δ :=
  let cgroupThreadLimit := min args.maxThreads args.maxPendingEvents
  if snapshot.totalThreads > cgroupThreadLimit then
    (some (tooManyThreads snapshot.totalThreads cgroupThreadLimit), self)
  else
    let exited := iter.order (self.processes.keys.filter (· ∉ snapshot.threadsByPid))
    let self := exited.foldl retire self
    let (error, processes) := reconcileEach args answers (iter.order snapshot.threadsByPid.keys) self.processes
    (error, { self with processes := processes })

/-- The active processes in the order of `iter`. -/
def ingestActive (flush : Bool) (drained : List (Except String PerfBatch)) (iter : IterOrder) (window : CpuWindow)
    (world : ω) : Option String × CpuCollector δ × CpuWindow × ω :=
  let entries := iter.order self.processes.entries
  let (error, ingested, rest) := ingestEach args comm flush (entries.map (·.2)) drained window world
  let processes := ((entries.map (·.1)).zip ingested).foldl (fun table entry => table.insert entry.1 entry.2)
    self.processes
  (error, { self with processes := processes }, rest)

/-- Retired processes are flushed, and forgotten when that succeeds. -/
def ingestRetired (drained : List PerfBatch) (window : CpuWindow) (world : ω) :
    Option String × CpuCollector δ × CpuWindow × ω :=
  let (error, ingested, rest) := ingestEach args comm true self.retired (drained.map .ok) window world
  (error, { self with retired := if error.isSome then ingested else [] }, rest)

/-- What the two ways to ingest share; the lists are what the rings give, in the order they are drained. -/
def ingest (flush : Bool) (active : List (Except String PerfBatch)) (retired : List PerfBatch) (iter : IterOrder)
    (window : CpuWindow) (world : ω) : Option String × CpuCollector δ × CpuWindow × ω :=
  let (error, self, window, world) := self.ingestActive args comm flush active iter window world
  if error.isSome then (error, self, window, world) else self.ingestRetired args comm retired window world

/-- Only the first active process waits for its rings, which can fail. -/
def waitAndIngest (waited : Except String PerfBatch) (active retired : List PerfBatch) (iter : IterOrder)
    (window : CpuWindow) (world : ω) : Option String × CpuCollector δ × CpuWindow × ω :=
  self.ingest args comm false (waited :: active.map .ok) retired iter window world

def drainAndIngest (active retired : List PerfBatch) (iter : IterOrder) (window : CpuWindow) (world : ω) :
    Option String × CpuCollector δ × CpuWindow × ω :=
  self.ingest args comm true (active.map .ok) retired iter window world

/-- The root process's maps have changed. -/
def refreshRoot (pid : Int32) (unwind : ProcessUnwind δ) : CpuCollector δ :=
  match self.processes.lookup pid with
  | some process => { self with processes := self.processes.insert pid { process with unwind := unwind } }
  | none => self

/-- The peaks and the forced flushes of all sorters, which start to count anew. -/
def takeSorterStats : (ℕ × ℕ) × CpuCollector δ :=
  let sorters := (self.processes.entries.map (·.2) ++ self.retired).map CpuProcessCollector.sorter
  (sorters.foldl (fun total sorter => (saturatingAddU64 total.1 sorter.peakPending,
      saturatingAddU64 total.2 sorter.forcedFlushes)) (0, 0),
    { processes := self.processes.mapValues CpuProcessCollector.takeStats
      retired := self.retired.map CpuProcessCollector.takeStats })

end

end CpuCollector

/-! ## Any order of calls -/

inductive CgroupCall (δ ω : Type) where
  | reconcile (listed : List (Int32 × ThreadsRead)) (answers : ReconcileAnswers δ) (iter : IterOrder)
  | waitAndIngest (waited : Except String PerfBatch) (active retired : List PerfBatch) (iter : IterOrder)
      (window : CpuWindow) (world : ω)
  | drainAndIngest (active retired : List PerfBatch) (iter : IterOrder) (window : CpuWindow) (world : ω)
  | refreshRoot (pid : Int32) (unwind : ProcessUnwind δ)
  | takeSorterStats

/-- Every process listed has a thread. -/
def CgroupCall.Populated {δ ω : Type} : CgroupCall δ ω → Prop
  | .reconcile listed _ _ => ∀ pid tids, (pid, ThreadsRead.threads tids) ∈ listed → tids.Nonempty
  | _ => True

def CgroupCall.Ingests {δ ω : Type} : CgroupCall δ ω → Prop
  | .waitAndIngest .. => True
  | .drainAndIngest .. => True
  | _ => False

namespace CpuCollector

variable {δ ω : Type} (args : CgroupArgs) (comm : CommReader ω)

/-- The error that a call returns, and the collector after it. -/
def call (self : CpuCollector δ) : CgroupCall δ ω → Option String × CpuCollector δ
  | .reconcile listed answers iter =>
    match CgroupThreadSnapshot.read listed {} with
    | .error error => (some error, self)
    | .ok snapshot => self.reconcileWithArgs args snapshot answers iter
  | .waitAndIngest waited active retired iter window world =>
    let result := self.waitAndIngest args comm waited active retired iter window world
    (result.1, result.2.1)
  | .drainAndIngest active retired iter window world =>
    let result := self.drainAndIngest args comm active retired iter window world
    (result.1, result.2.1)
  | .refreshRoot pid unwind => (none, self.refreshRoot pid unwind)
  | .takeSorterStats => (none, self.takeSorterStats.2)

def pendingSamples (self : CpuCollector δ) : ℕ :=
  Table.sumOver (fun _ process => (Queues.items process.sorter.pending).length) self.processes +
    (self.retired.map fun process => (Queues.items process.sorter.pending).length).sum

def calls (self : CpuCollector δ) (l : List (CgroupCall δ ω)) : CpuCollector δ :=
  l.foldl (fun self c => (self.call args comm c).2) self

end CpuCollector

end RustProfile
