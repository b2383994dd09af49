import RustProfile.HeapBpf
import RustProfile.HeapState
import RustProfile.Unwind

/-!
# The heap collector

The user side of heap profiling: events go from the ring through a bounded
channel into the `HeapState`, and a window ends with a snapshot. `HeapSystem`
puts the collector next to the kernel program it is attached to.
-/

namespace RustProfile

def eventQueueCapacity : ℕ := 4096
def pendingStacksMax : ℕ := 65536

def KernelStats.delta (self earlier : KernelStats) : KernelStats := fun index => self index - earlier index

structure HeapCollector (δ : Type) where
  receiver : List RawEvent
  userspaceDrops : ℕ
  pendingStacks : Table ℕ (List UInt64)
  state : HeapState
  dwarf : Option δ
  allowPartial : Bool
  previousStats : KernelStats
  localStackFailures : UInt64
  localStackSamples : UInt64
  localUsableStacks : UInt64
  localDepthSum : ℕ
  fatalUnwindError : Option String
  executableRanges : ExecutableRanges

/-- A window's diagnostics, without the float and the fields that `record` fills in. -/
structure HeapWindowDiagnostics where
  allocationEvents : ℕ
  sampledAllocations : ℕ
  sampledFrees : ℕ
  aggregationDropped : HeapAggregationDrops
  liveSamples : ℕ
  ringBufferDrops : ℕ
  mapEvictions : ℕ
  mapUpdateFailures : ℕ
  pendingOverwrites : ℕ
  unfinishedReturns : ℕ
  stackSamples : ℕ
  usableStacks : ℕ
  stackFailures : ℕ
  depthSum : ℕ
  deriving DecidableEq, Repr

/-! ## Parsing -/

/-- `chunks_exact(8)` read as little-endian words. -/
def readWords : List UInt8 → List UInt64
  | b₀ :: b₁ :: b₂ :: b₃ :: b₄ :: b₅ :: b₆ :: b₇ :: rest =>
    [b₀, b₁, b₂, b₃, b₄, b₅, b₆, b₇].foldr (fun b acc => (acc <<< 8) ||| b.toUInt64) 0 :: readWords rest
  | _ => []

/-- The stack bytes the header announces, as far as the record has them. -/
def RawEvent.stackSlice (event : RawEvent) (limit : ℕ) : List UInt8 :=
  event.stack.take (min event.header.stackLength.toNat limit)

def parseFpStack (event : RawEvent) : List UInt64 :=
  let frames := (readWords (event.stackSlice (defaultMaxFrames * 8))).filter fun address =>
    address ≠ 0 && address < UInt64.ofNat (u64Max - 4095)
  let frames := if event.header.ip ≠ 0 ∧ frames.head? ≠ some event.header.ip then event.header.ip :: frames else frames
  frames.take defaultMaxFrames

namespace HeapCollector

section
variable {δ : Type}

/-- The collector once the probes are attached to `kernel`. The counters so far
are its baseline. -/
def attach (kernel : HeapBpf) (maps : List MapEntry) (dwarf : Option δ) (allowPartial : Bool) (maxStacks : ℕ) :
    HeapCollector δ where
  receiver := []
  userspaceDrops := 0
  pendingStacks := ∅
  state := HeapState.withMaxStacks maxStacks
  dwarf := dwarf
  allowPartial := allowPartial
  previousStats := kernel.stats
  localStackFailures := 0
  localStackSamples := 0
  localUsableStacks := 0
  localDepthSum := 0
  fatalUnwindError := none
  executableRanges := ExecutableRanges.fromMaps maps

variable (unwinder : UnwindBytes δ) (self : HeapCollector δ)

/-! ## Events -/

def unwindStack (event : RawEvent) : List UInt64 × HeapCollector δ :=
  let header := event.header
  match self.dwarf with
  | none => (if self.allowPartial then [header.ip] else [], self)
  | some dwarf =>
    let registers : RawRegisters := { ip := header.ip, sp := header.sp, fp := header.fp, lr := header.lr }
    let (outcome, dwarf) := unwinder.unwindBytes dwarf registers (event.stackSlice event.stack.length)
    let self := { self with dwarf := some dwarf }
    if outcome.fatal then ([], { self with fatalUnwindError := outcome.error })
    else
      let leafOnlyFailure := outcome.frames.length = 1 ∧ outcome.error.isSome
      if (outcome.frames = [] ∨ leafOnlyFailure) ∧ self.allowPartial ∧ header.ip ≠ 0 then ([header.ip], self)
      else if leafOnlyFailure then ([], self)
      else (outcome.frames, self)

/-- Above the limit the older half of the stacks, by token, is given up. -/
def limitPendingStacks : HeapCollector δ :=
  if self.pendingStacks.size > pendingStacksMax then
    let tokens := self.pendingStacks.keys.insertionSort (· ≤ ·)
    let cutoff := tokens.getD (tokens.length / 2) 0
    let pendingStacks := self.pendingStacks.retain fun token _ => cutoff ≤ token
    { self with
      pendingStacks := pendingStacks
      localStackFailures :=
        .ofNat (saturatingAddU64 self.localStackFailures.toNat (self.pendingStacks.size - pendingStacks.size)) }
  else self

def stackFrames (event : RawEvent) : List UInt64 × HeapCollector δ :=
  if event.header.unwindMode = 1 then (parseFpStack event, self) else self.unwindStack unwinder event

/-- Unwinding a stack changes the unwinder and its error alone, and does not depend on what was counted. -/
theorem unwindStack_spec (event : RawEvent) : ∃ frames dwarf fatal,
    (self.dwarf = none → dwarf = none ∧ fatal = self.fatalUnwindError) ∧
    ∀ n, ({ self with localStackSamples := n } : HeapCollector δ).unwindStack unwinder event =
      (frames, { self with localStackSamples := n, dwarf := dwarf, fatalUnwindError := fatal }) := by
  unfold unwindStack
  cases self.dwarf with
  | none =>
    exact ⟨if self.allowPartial then [event.header.ip] else [], none, self.fatalUnwindError, fun _ => ⟨rfl, rfl⟩,
      fun n => rfl⟩
  | some dwarf =>
    obtain ⟨unwindBytes⟩ := unwinder
    dsimp only
    generalize unwindBytes dwarf _ _ = walk
    by_cases hfatal : walk.1.fatal = true
    · simp only [if_pos hfatal]
      exact ⟨[], some walk.2, walk.1.error, nofun, fun _ => rfl⟩
    simp only [if_neg hfatal]
    by_cases hleaf : (walk.1.frames = [] ∨ walk.1.frames.length = 1 ∧ walk.1.error.isSome = true) ∧
        self.allowPartial = true ∧ event.header.ip ≠ 0
    · simp only [if_pos hleaf]
      exact ⟨[event.header.ip], some walk.2, self.fatalUnwindError, nofun, fun _ => rfl⟩
    simp only [if_neg hleaf]
    by_cases hfailure : walk.1.frames.length = 1 ∧ walk.1.error.isSome = true
    · simp only [if_pos hfailure]
      exact ⟨[], some walk.2, self.fatalUnwindError, nofun, fun _ => rfl⟩
    · simp only [if_neg hfailure]
      exact ⟨walk.1.frames, some walk.2, self.fatalUnwindError, nofun, fun _ => rfl⟩

theorem stackFrames_spec (event : RawEvent) : ∃ frames dwarf fatal,
    (self.dwarf = none → dwarf = none ∧ fatal = self.fatalUnwindError) ∧
    ∀ n, ({ self with localStackSamples := n } : HeapCollector δ).stackFrames unwinder event =
      (frames, { self with localStackSamples := n, dwarf := dwarf, fatalUnwindError := fatal }) := by
  unfold stackFrames
  split
  · exact ⟨_, self.dwarf, self.fatalUnwindError, fun h => ⟨h, rfl⟩, fun n => rfl⟩
  · exact self.unwindStack_spec unwinder event

/-- Keep the frames for the allocation with their token, unless they are no valid stack. -/
def storeStack (token : ℕ) (frames : List UInt64) : HeapCollector δ :=
  let cyclic := hasAddressCycle frames
  let invalid := frames.any fun address => !self.executableRanges.contains address
  if frames = [] ∨ cyclic ∨ invalid then { self with localStackFailures := self.localStackFailures + 1 }
  else
    let self := { self with
      localUsableStacks := self.localUsableStacks + 1
      localDepthSum := saturatingAddU64 self.localDepthSum frames.length
      pendingStacks := self.pendingStacks.insert token frames }
    self.limitPendingStacks

def applyStack (event : RawEvent) : HeapCollector δ :=
  let self := { self with localStackSamples := self.localStackSamples + 1 }
  let (frames, self) := self.stackFrames unwinder event
  self.storeStack event.header.token frames

def applyRawEvent (event : RawEvent) : HeapCollector δ :=
  let header := event.header
  match header.kind with
  | .stack => self.applyStack unwinder event
  | .alloc =>
    match self.pendingStacks.lookup header.token with
    | none => { self with localStackFailures := self.localStackFailures + 1 }
    | some frames =>
      let event : HeapEvent :=
        { kind := .alloc, pointer := header.pointer, size := header.size, weight := header.weight, frames := frames }
      { self with pendingStacks := self.pendingStacks.erase header.token, state := self.state.apply event }
  | .free =>
    { self with
      state := self.state.apply { kind := .free, pointer := header.pointer, size := 0, weight := 0, frames := [] } }

/-! ## Draining and snapshots -/

/-- The ring's callback: send the record, or count it when the channel is full. -/
def receive (event : RawEvent) : HeapCollector δ :=
  if self.receiver.length < eventQueueCapacity then { self with receiver := self.receiver ++ [event] }
  else { self with userspaceDrops := self.userspaceDrops + 1 }

/-- Consume the whole ring, then apply what the channel took. -/
def deliver (kernel : HeapBpf) : HeapCollector δ :=
  let self := kernel.events.foldl receive self
  self.receiver.foldl (applyRawEvent unwinder) { self with receiver := [] }

def drain (kernel : HeapBpf) : Except String (HeapCollector δ × HeapBpf) :=
  let self := self.deliver unwinder kernel
  match self.fatalUnwindError with
  | some error => .error s!"heap stack address normalization failed: {error}"
  | none => .ok (self, { kernel with events := [] })

def liveKernelPointers (kernel : HeapBpf) : Finset UInt64 := kernel.liveSamples.keys.toFinset

/-- Evictions or ring drops since the last snapshot leave stale pointers, so
only those that the kernel still tracks are kept. -/
def reconcile (kernel : HeapBpf) (iter : IterOrder) : HeapCollector δ :=
  let delta := KernelStats.delta kernel.stats self.previousStats
  -- what the channel refused is in `userspaceDrops`, which is not asked for here
  if delta .mapEvictions ≠ 0 ∨ delta .ringbufDrops ≠ 0 then
    { self with state := self.state.retainLivePointers (liveKernelPointers kernel) iter }
  else self

/-- What a snapshot does once it has drained. -/
def closeWindow (kernel : HeapBpf) (iter : IterOrder) :
    (Table Stack HeapValues × HeapWindowDiagnostics) × HeapCollector δ :=
  let delta := KernelStats.delta kernel.stats self.previousStats
  let self := self.reconcile kernel iter
  let ((profile, aggregationDrops), state) := self.state.snapshotWindowWithDrops iter
  let diagnostics : HeapWindowDiagnostics :=
    { allocationEvents := delta .allocEvents
      sampledAllocations := delta .sampledAllocs
      sampledFrees := delta .sampledFrees
      aggregationDropped := aggregationDrops
      liveSamples := state.liveSampleCount
      ringBufferDrops := saturatingAddU64 (delta .ringbufDrops) self.userspaceDrops
      mapEvictions := delta .mapEvictions
      mapUpdateFailures := delta .mapUpdateFailures
      pendingOverwrites := delta .pendingOverwrites
      unfinishedReturns := kernel.pending.size
      stackSamples := self.localStackSamples.toNat
      usableStacks := self.localUsableStacks.toNat
      stackFailures := max (delta .stackFailures) self.localStackFailures.toNat
      depthSum := self.localDepthSum }
  let self := { self with
    state := state, previousStats := kernel.stats, userspaceDrops := 0, localStackSamples := 0
    localUsableStacks := 0, localDepthSum := 0, localStackFailures := 0 }
  ((profile, diagnostics), self)

def snapshotWindow (kernel : HeapBpf) (iter : IterOrder) :
    Except String ((Table Stack HeapValues × HeapWindowDiagnostics) × HeapCollector δ × HeapBpf) :=
  match self.drain unwinder kernel with
  | .error error => .error error
  | .ok (self, kernel) =>
    let (output, self) := self.closeWindow kernel iter
    .ok (output, self, kernel)

def clearForExec : HeapCollector δ := { self with pendingStacks := ∅, state := self.state.clearLive }

end

end HeapCollector

/-! ## The system -/

inductive ProbeStep where
  | enter (fn : AllocFn) (hit : ProbeHit)
  | exit (fn : AllocFn) (hit : ProbeHit)
  | free (fn : FreeFn) (hit : ProbeHit)

/-- The map evicts only with `STAT_MAP_EVICTIONS` counted. -/
def HeapBpf.probe (config : BpfConfig) (self : HeapBpf) : ProbeStep → Option HeapBpf
  | .enter fn hit => some (fn.enter config hit self)
  | .exit fn hit =>
    if hit.evicted = [] ∨ self.stats .mapEvictions < (fn.exit config hit self).stats .mapEvictions then
      some (fn.exit config hit self)
    else none
  | .free fn hit => some (fn.enter config hit self)

structure HeapSystem (δ : Type) where
  kernel : HeapBpf
  collector : HeapCollector δ

inductive HeapStep where
  | probe (step : ProbeStep)
  | drain
  | snapshotWindow (iter : IterOrder)
  | clearForExec

/-- A probe hit, or a call of the collector. A call that fails ends the recording. -/
def HeapSystem.step {δ : Type} (config : BpfConfig) (unwinder : UnwindBytes δ) (self : HeapSystem δ) :
    HeapStep → Option (HeapSystem δ)
  | .probe p => (self.kernel.probe config p).map fun kernel => { self with kernel := kernel }
  | .drain =>
    match self.collector.drain unwinder self.kernel with
    | .ok (collector, kernel) => some ⟨kernel, collector⟩
    | .error _ => none
  | .snapshotWindow iter =>
    match self.collector.snapshotWindow unwinder self.kernel iter with
    | .ok (_, collector, kernel) => some ⟨kernel, collector⟩
    | .error _ => none
  | .clearForExec => some { self with collector := self.collector.clearForExec }

end RustProfile
