import RustProfile.Lib.Table
import Mathlib.Logic.Function.Basic

/-!
# The allocator probes

The kernel program `heap.bpf.c`. A probe hit runs one program to its end, and
the programs of two CPUs run one after the other. What the helpers return during
a run (random numbers, ring reservations, user memory, map failures and
evictions) is the `ProbeHit`. Tokens and counters are `ℕ`.
-/

namespace RustProfile

inductive EventKind where
  | stack
  | alloc
  | free
  deriving DecidableEq, Repr

inductive Operation where
  | alloc
  | realloc
  | posixMemalign
  deriving DecidableEq, Repr

inductive StatIndex where
  | ringbufDrops
  | pendingOverwrites
  | mapUpdateFailures
  | stackFailures
  | allocEvents
  | sampledAllocs
  | sampledFrees
  | mapEvictions
  deriving DecidableEq, Repr

abbrev KernelStats := StatIndex → ℕ

/-- An event record without the process and thread ids, which no reader uses. -/
structure EventHeader where
  kind : EventKind
  unwindMode : UInt32
  token : ℕ := 0
  pointer : UInt64 := 0
  size : UInt64 := 0
  weight : UInt64 := 0
  ip : UInt64 := 0
  sp : UInt64 := 0
  fp : UInt64 := 0
  lr : UInt64 := 0
  stackLength : ℤ := 0
  deriving DecidableEq, Repr

/-- A record of the ring: a header and the stack bytes that follow it. -/
structure RawEvent where
  header : EventHeader
  stack : List UInt8 := []
  deriving DecidableEq, Repr

structure PendingAllocation where
  token : ℕ
  size : UInt64
  weight : UInt64
  oldPtr : UInt64
  outputPtr : UInt64
  operation : Operation
  sampled : Bool
  oldTracked : Bool
  deriving DecidableEq, Repr

structure BpfConfig where
  allocationInterval : UInt64
  selectedUnwindMode : UInt32
  arm64 : Bool := false

structure PtRegs where
  parm1 : UInt64 := 0
  parm2 : UInt64 := 0
  parm3 : UInt64 := 0
  parm4 : UInt64 := 0
  rc : UInt64 := 0
  ip : UInt64 := 0
  sp : UInt64 := 0
  fp : UInt64 := 0
  lr : UInt64 := 0

/-- One run of a probe program: the thread, its registers and what the helpers
return. A failed read of user memory leaves `0`. -/
structure ProbeHit where
  tid : UInt32
  regs : PtRegs := {}
  random : UInt32 × UInt32 := (0, 0)
  reserve : EventKind → Bool := fun _ => true
  stackBytes : Option (List UInt8) := none
  secondHalf : Option (List UInt8) := none
  readUser : UInt64 → UInt64 := fun _ => 0
  pendingUpdateFails : Bool := false
  liveUpdateFails : Bool := false
  evicted : List UInt64 := []

structure HeapBpf where
  pending : Table UInt32 PendingAllocation
  liveSamples : Table UInt64 ℕ
  events : List RawEvent
  stats : KernelStats
  nextToken : ℕ
  liveCount : ℕ

def liveSampleCapacity : ℕ := 262144

/-- The maps and variables as the program is loaded. -/
def HeapBpf.loaded : HeapBpf where
  pending := ∅
  liveSamples := ∅
  events := []
  stats := fun _ => 0
  nextToken := 0
  liveCount := 0

/-- The largest power of two that `interval / size` reaches. -/
def samplingWeight (config : BpfConfig) (size : UInt64) : UInt64 :=
  if size = 0 ∨ size ≥ config.allocationInterval ∨ config.allocationInterval = 0 then 1
  else
    let ratio := config.allocationInterval / size
    let ratio := ratio ||| (ratio >>> 1)
    let ratio := ratio ||| (ratio >>> 2)
    let ratio := ratio ||| (ratio >>> 4)
    let ratio := ratio ||| (ratio >>> 8)
    let ratio := ratio ||| (ratio >>> 16)
    let ratio := ratio ||| (ratio >>> 32)
    ratio - (ratio >>> 1)

def shouldSample (hit : ProbeHit) (weight : UInt64) : Bool :=
  if weight ≤ 1 then true
  else
    let random := hit.random.1.toUInt64
    let random := if weight > 0x100000000 then (random <<< 32) ||| hit.random.2.toUInt64 else random
    random &&& (weight - 1) = 0

namespace HeapBpf

def incrementStat (self : HeapBpf) (index : StatIndex) : HeapBpf :=
  { self with stats := Function.update self.stats index (self.stats index + 1) }

/-- The stack bytes of an event and their `stack_len`, `none` when the first
read fails. Without frame pointers the second half of the stack is optional. -/
def userStack (config : BpfConfig) (hit : ProbeHit) : Option (List UInt8) :=
  if config.selectedUnwindMode = 1 then hit.stackBytes
  else hit.stackBytes.map fun first => first ++ hit.secondHalf.getD []

def emitStack (self : HeapBpf) (config : BpfConfig) (hit : ProbeHit) (token : ℕ) (size weight : UInt64) : HeapBpf :=
  let header : EventHeader :=
    { kind := .stack, unwindMode := config.selectedUnwindMode, token := token, size := size, weight := weight
      ip := hit.regs.ip, sp := hit.regs.sp, fp := hit.regs.fp, lr := if config.arm64 then hit.regs.lr else 0 }
  if hit.reserve .stack then
    match userStack config hit with
    | some bytes =>
      let event := { header := { header with stackLength := bytes.length }, stack := bytes }
      { self with events := self.events ++ [event] }
    -- the event is submitted without its stack
    | none => { self.incrementStat .stackFailures with events := self.events ++ [{ header := header }] }
  else self.incrementStat .ringbufDrops

def emitControl (self : HeapBpf) (config : BpfConfig) (hit : ProbeHit) (kind : EventKind) (token : ℕ)
    (ptr size weight : UInt64) : HeapBpf :=
  let header : EventHeader :=
    { kind := kind, unwindMode := config.selectedUnwindMode, token := token, pointer := ptr, size := size
      weight := weight }
  if hit.reserve kind then { self with events := self.events ++ [{ header := header }] }
  else self.incrementStat .ringbufDrops

/-- The value `begin_allocation` fills in, `none` when it returns without one. -/
def begunAllocation (self : HeapBpf) (config : BpfConfig) (hit : ProbeHit) (size oldPtr outputPtr : UInt64)
    (operation : Operation) : Option PendingAllocation :=
  let weight := samplingWeight config size
  let sampled := size ≠ 0 && shouldSample hit weight
  let oldToken := if oldPtr ≠ 0 then self.liveSamples.lookup oldPtr else none
  if !sampled && oldToken.isNone then none
  else some
    { token := if sampled then self.nextToken + 1 else 0, size := size, weight := weight, oldPtr := oldPtr
      outputPtr := outputPtr, operation := operation, sampled := sampled, oldTracked := oldToken.isSome }

def countCall (self : HeapBpf) (hit : ProbeHit) : HeapBpf :=
  let existing := self.pending.lookup hit.tid
  let self := self.incrementStat .allocEvents
  if existing.isSome then self.incrementStat .pendingOverwrites else self

def storePending (self : HeapBpf) (config : BpfConfig) (hit : ProbeHit) (value : PendingAllocation) : HeapBpf :=
  let self :=
    if value.sampled then
      { self with nextToken := value.token }.emitStack config hit value.token value.size value.weight
    else self
  -- the value overwrites that of a call around this one
  if hit.pendingUpdateFails then self.incrementStat .mapUpdateFailures
  else { self with pending := self.pending.insert hit.tid value }

def beginAllocation (self : HeapBpf) (config : BpfConfig) (hit : ProbeHit) (size oldPtr outputPtr : UInt64)
    (operation : Operation) : HeapBpf :=
  match self.begunAllocation config hit size oldPtr outputPtr operation with
  | none => self.countCall hit
  | some value => (self.countCall hit).storePending config hit value

/-- What `finish_allocation` does with a tracked old block and `free_allocation`
with a tracked block: announce it as freed and stop tracking it. -/
def releaseSample (self : HeapBpf) (config : BpfConfig) (hit : ProbeHit) (ptr : UInt64) : HeapBpf :=
  match self.liveSamples.lookup ptr with
  | some token =>
    let self := (self.emitControl config hit .free token ptr 0 0).incrementStat .sampledFrees
    { self with liveSamples := self.liveSamples.erase ptr, liveCount := self.liveCount - 1 }
  | none => self

def countLive (self : HeapBpf) : HeapBpf :=
  if self.liveCount ≥ liveSampleCapacity then self.incrementStat .mapEvictions
  else { self with liveCount := self.liveCount + 1 }

def recordSample (self : HeapBpf) (config : BpfConfig) (hit : ProbeHit) (value : PendingAllocation) (ptr : UInt64) :
    HeapBpf :=
  if hit.liveUpdateFails then self.incrementStat .mapUpdateFailures
  else
    let live := (self.liveSamples.retain fun key _ => key ∉ hit.evicted).insert ptr value.token
    let self := { self with liveSamples := live }.countLive
    (self.emitControl config hit .alloc value.token ptr value.size value.weight).incrementStat .sampledAllocs

/-- The pointer a call returned. -/
def returnedPtr (hit : ProbeHit) (posixMemalign : Bool) (outputPtr : UInt64) : UInt64 :=
  if posixMemalign then if hit.regs.rc = 0 ∧ outputPtr ≠ 0 then hit.readUser outputPtr else 0 else hit.regs.rc

/-- Whether the exit releases the block that a `realloc` was given. -/
def releasesOld (value : PendingAllocation) (ptr : UInt64) : Bool :=
  let reallocSucceeded := value.operation ≠ .realloc || ptr ≠ 0 || value.size = 0
  value.operation = .realloc && value.oldTracked && reallocSucceeded

def releaseOld (self : HeapBpf) (config : BpfConfig) (hit : ProbeHit) (value : PendingAllocation) (ptr : UInt64) :
    HeapBpf :=
  if releasesOld value ptr then self.releaseSample config hit value.oldPtr else self

def recordNew (self : HeapBpf) (config : BpfConfig) (hit : ProbeHit) (value : PendingAllocation) (ptr : UInt64) :
    HeapBpf :=
  if value.sampled && ptr ≠ 0 then self.recordSample config hit value ptr else self

def finishAllocation (self : HeapBpf) (config : BpfConfig) (hit : ProbeHit) (posixMemalign : Bool) : HeapBpf :=
  match self.pending.lookup hit.tid with
  | none => self
  | some value =>
    let ptr := returnedPtr hit posixMemalign value.outputPtr
    -- the old address is looked up again, whoever has it by now
    let self := (self.releaseOld config hit value ptr).recordNew config hit value ptr
    { self with pending := self.pending.erase hit.tid }

def freeAllocation (self : HeapBpf) (config : BpfConfig) (hit : ProbeHit) (ptr : UInt64) : HeapBpf :=
  if ptr = 0 then self else self.releaseSample config hit ptr

end HeapBpf

/-! ## The programs -/

section
variable (self : HeapBpf) (config : BpfConfig) (hit : ProbeHit)

def rustAllocEnter : HeapBpf := self.beginAllocation config hit hit.regs.parm1 0 0 .alloc
def rustAllocExit : HeapBpf := self.finishAllocation config hit false
def rustAllocZeroedEnter : HeapBpf := self.beginAllocation config hit hit.regs.parm1 0 0 .alloc
def rustAllocZeroedExit : HeapBpf := self.finishAllocation config hit false
def rustReallocEnter : HeapBpf := self.beginAllocation config hit hit.regs.parm4 hit.regs.parm1 0 .realloc
def rustReallocExit : HeapBpf := self.finishAllocation config hit false
def rustDeallocEnter : HeapBpf := self.freeAllocation config hit hit.regs.parm1
def systemMallocEnter : HeapBpf := self.beginAllocation config hit hit.regs.parm1 0 0 .alloc
def systemMallocExit : HeapBpf := self.finishAllocation config hit false
def systemCallocEnter : HeapBpf := self.beginAllocation config hit (hit.regs.parm1 * hit.regs.parm2) 0 0 .alloc
def systemCallocExit : HeapBpf := self.finishAllocation config hit false
def systemReallocEnter : HeapBpf := self.beginAllocation config hit hit.regs.parm2 hit.regs.parm1 0 .realloc
def systemReallocExit : HeapBpf := self.finishAllocation config hit false
def systemFreeEnter : HeapBpf := self.freeAllocation config hit hit.regs.parm1
def systemAlignedAllocEnter : HeapBpf := self.beginAllocation config hit hit.regs.parm2 0 0 .alloc
def systemAlignedAllocExit : HeapBpf := self.finishAllocation config hit false
def systemPosixMemalignEnter : HeapBpf := self.beginAllocation config hit hit.regs.parm3 0 hit.regs.parm1 .posixMemalign
def systemPosixMemalignExit : HeapBpf := self.finishAllocation config hit true

end

inductive AllocFn where
  | rustAlloc
  | rustAllocZeroed
  | rustRealloc
  | malloc
  | calloc
  | realloc
  | alignedAlloc
  | posixMemalign
  deriving DecidableEq, Repr

inductive FreeFn where
  | rustDealloc
  | free
  deriving DecidableEq, Repr

def AllocFn.enter (config : BpfConfig) (hit : ProbeHit) (self : HeapBpf) : AllocFn → HeapBpf
  | .rustAlloc => rustAllocEnter self config hit
  | .rustAllocZeroed => rustAllocZeroedEnter self config hit
  | .rustRealloc => rustReallocEnter self config hit
  | .malloc => systemMallocEnter self config hit
  | .calloc => systemCallocEnter self config hit
  | .realloc => systemReallocEnter self config hit
  | .alignedAlloc => systemAlignedAllocEnter self config hit
  | .posixMemalign => systemPosixMemalignEnter self config hit

def AllocFn.exit (config : BpfConfig) (hit : ProbeHit) (self : HeapBpf) : AllocFn → HeapBpf
  | .rustAlloc => rustAllocExit self config hit
  | .rustAllocZeroed => rustAllocZeroedExit self config hit
  | .rustRealloc => rustReallocExit self config hit
  | .malloc => systemMallocExit self config hit
  | .calloc => systemCallocExit self config hit
  | .realloc => systemReallocExit self config hit
  | .alignedAlloc => systemAlignedAllocExit self config hit
  | .posixMemalign => systemPosixMemalignExit self config hit

def FreeFn.enter (config : BpfConfig) (hit : ProbeHit) (self : HeapBpf) : FreeFn → HeapBpf
  | .rustDealloc => rustDeallocEnter self config hit
  | .free => systemFreeEnter self config hit

/-- The arguments an allocation program hands to `begin_allocation`. -/
structure AllocArgs where
  size : UInt64
  oldPtr : UInt64
  outputPtr : UInt64
  operation : Operation
  deriving DecidableEq, Repr

def AllocFn.args (regs : PtRegs) : AllocFn → AllocArgs
  | .rustAlloc => ⟨regs.parm1, 0, 0, .alloc⟩
  | .rustAllocZeroed => ⟨regs.parm1, 0, 0, .alloc⟩
  | .rustRealloc => ⟨regs.parm4, regs.parm1, 0, .realloc⟩
  | .malloc => ⟨regs.parm1, 0, 0, .alloc⟩
  | .calloc => ⟨regs.parm1 * regs.parm2, 0, 0, .alloc⟩
  | .realloc => ⟨regs.parm2, regs.parm1, 0, .realloc⟩
  | .alignedAlloc => ⟨regs.parm2, 0, 0, .alloc⟩
  | .posixMemalign => ⟨regs.parm3, 0, regs.parm1, .posixMemalign⟩

def AllocFn.isPosixMemalign : AllocFn → Bool
  | .posixMemalign => true
  | _ => false

theorem enter_eq (config : BpfConfig) (hit : ProbeHit) (self : HeapBpf) (fn : AllocFn) :
    fn.enter config hit self = self.beginAllocation config hit (fn.args hit.regs).size (fn.args hit.regs).oldPtr
      (fn.args hit.regs).outputPtr (fn.args hit.regs).operation := by
  cases fn <;> rfl

/-- Every exit program is `finish_allocation`, told apart only for `posix_memalign`. -/
theorem exit_eq (config : BpfConfig) (hit : ProbeHit) (self : HeapBpf) (fn : AllocFn) :
    fn.exit config hit self = self.finishAllocation config hit fn.isPosixMemalign := by
  cases fn <;> rfl

theorem freeEnter_eq (config : BpfConfig) (hit : ProbeHit) (self : HeapBpf) (fn : FreeFn) :
    fn.enter config hit self = self.freeAllocation config hit hit.regs.parm1 := by
  cases fn <;> rfl

/-! ## What each helper changes -/

section
variable (self : HeapBpf) (config : BpfConfig) (hit : ProbeHit)

@[simp] theorem incrementStat_frame (i : StatIndex) :
    (self.incrementStat i).pending = self.pending ∧ (self.incrementStat i).liveSamples = self.liveSamples ∧
      (self.incrementStat i).events = self.events ∧ (self.incrementStat i).nextToken = self.nextToken ∧
      (self.incrementStat i).liveCount = self.liveCount := ⟨rfl, rfl, rfl, rfl, rfl⟩

theorem incrementStat_stats (i j : StatIndex) :
    (self.incrementStat i).stats j = if j = i then self.stats i + 1 else self.stats j := by
  unfold HeapBpf.incrementStat
  exact Function.update_apply ..

theorem le_incrementStat (i j : StatIndex) : self.stats j ≤ (self.incrementStat i).stats j := by
  rw [incrementStat_stats]
  split
  · rename_i h; subst h; exact Nat.le_succ _
  · exact Nat.le_refl _

theorem emitStack_spec (token : ℕ) (size weight : UInt64) :
    (self.emitStack config hit token size weight).pending = self.pending ∧
      (self.emitStack config hit token size weight).liveSamples = self.liveSamples ∧
      (self.emitStack config hit token size weight).nextToken = self.nextToken ∧
      ∃ es, (self.emitStack config hit token size weight).events = self.events ++ es ∧
        ∀ e ∈ es, e.header.kind = .stack := by
  unfold HeapBpf.emitStack
  dsimp only
  split
  · split
    · exact ⟨rfl, rfl, rfl, _, rfl, by simp⟩
    · exact ⟨rfl, rfl, rfl, _, rfl, by simp⟩
  · exact ⟨rfl, rfl, rfl, [], (List.append_nil _).symm, by simp⟩

theorem countCall_frame :
    (self.countCall hit).pending = self.pending ∧ (self.countCall hit).liveSamples = self.liveSamples ∧
      (self.countCall hit).nextToken = self.nextToken ∧ (self.countCall hit).events = self.events := by
  unfold HeapBpf.countCall
  dsimp only
  split <;> exact ⟨rfl, rfl, rfl, rfl⟩

theorem storePending_spec (value : PendingAllocation) :
    (self.storePending config hit value).pending =
        (if hit.pendingUpdateFails then self.pending else self.pending.insert hit.tid value) ∧
      (self.storePending config hit value).liveSamples = self.liveSamples ∧
      (self.storePending config hit value).nextToken = (if value.sampled then value.token else self.nextToken) ∧
      ∃ es, (self.storePending config hit value).events = self.events ++ es ∧ ∀ e ∈ es, e.header.kind = .stack := by
  unfold HeapBpf.storePending
  by_cases hs : value.sampled = true
  · obtain ⟨hp, hl, ht, es, he, hk⟩ :=
      emitStack_spec { self with nextToken := value.token } config hit value.token value.size value.weight
    simp only [hs, ite_true]
    split
    · exact ⟨hp, hl, ht, es, he, hk⟩
    · exact ⟨congrArg (·.insert hit.tid value) hp, hl, ht, es, he, hk⟩
  · simp only [hs]
    split
    · exact ⟨rfl, rfl, rfl, [], (List.append_nil _).symm, by simp⟩
    · exact ⟨rfl, rfl, rfl, [], (List.append_nil _).symm, by simp⟩

theorem begunAllocation_spec {size oldPtr outputPtr : UInt64} {operation : Operation} {value : PendingAllocation}
    (h : self.begunAllocation config hit size oldPtr outputPtr operation = some value) :
    value.size = size ∧ value.oldPtr = oldPtr ∧ value.outputPtr = outputPtr ∧ value.operation = operation ∧
      (value.sampled = true → value.token = self.nextToken + 1) ∧ (value.oldTracked = true → oldPtr ≠ 0) := by
  unfold HeapBpf.begunAllocation at h
  extract_lets weight sampled oldToken at h
  split at h
  · cases h
  · simp only [Option.some.injEq] at h
    subst h
    refine ⟨rfl, rfl, rfl, rfl, fun hs => if_pos hs, fun ho h0 => ?_⟩
    simp [oldToken, h0] at ho

/-- An enter stores the value it begins, and takes a token if it samples. -/
theorem beginAllocation_spec (size oldPtr outputPtr : UInt64) (operation : Operation) :
    (self.beginAllocation config hit size oldPtr outputPtr operation).liveSamples = self.liveSamples ∧
      ((self.beginAllocation config hit size oldPtr outputPtr operation).pending =
        match self.begunAllocation config hit size oldPtr outputPtr operation with
        | some value => if hit.pendingUpdateFails then self.pending else self.pending.insert hit.tid value
        | none => self.pending) ∧
      ((self.beginAllocation config hit size oldPtr outputPtr operation).nextToken =
        match self.begunAllocation config hit size oldPtr outputPtr operation with
        | some value => if value.sampled then value.token else self.nextToken
        | none => self.nextToken) ∧
      ∃ es, (self.beginAllocation config hit size oldPtr outputPtr operation).events = self.events ++ es ∧
        ∀ e ∈ es, e.header.kind = .stack := by
  obtain ⟨cp, cl, ct, ce⟩ := countCall_frame self hit
  unfold HeapBpf.beginAllocation
  cases self.begunAllocation config hit size oldPtr outputPtr operation with
  | none => exact ⟨cl, cp, ct, [], by rw [ce, List.append_nil], by simp⟩
  | some value =>
    obtain ⟨hp, hl, ht, es, he, hk⟩ := storePending_spec (self.countCall hit) config hit value
    exact ⟨hl.trans cl, by rw [hp, cp], by rw [ht, ct], es, by rw [he, ce], hk⟩

theorem releaseSample_spec (ptr : UInt64) :
    (self.releaseSample config hit ptr).pending = self.pending ∧
      (self.releaseSample config hit ptr).nextToken = self.nextToken ∧
      (∀ a, (self.releaseSample config hit ptr).liveSamples.lookup a =
        if a = ptr then none else self.liveSamples.lookup a) ∧
      ∃ es, (self.releaseSample config hit ptr).events = self.events ++ es ∧
        ∀ e ∈ es, e.header.kind = .free ∧ self.liveSamples.lookup ptr = some e.header.token := by
  unfold HeapBpf.releaseSample
  cases hl : self.liveSamples.lookup ptr with
  | none =>
    dsimp only
    refine ⟨rfl, rfl, fun a => ?_, [], (List.append_nil _).symm, by simp⟩
    split
    · rename_i e; rw [e, hl]
    · rfl
  | some token =>
    unfold HeapBpf.emitControl
    dsimp only
    split
    · exact ⟨rfl, rfl, Table.lookup_erase _ _, _, rfl, by simp⟩
    · exact ⟨rfl, rfl, Table.lookup_erase _ _, [], (List.append_nil _).symm, by simp⟩

theorem countLive_frame : self.countLive.events = self.events ∧ self.countLive.liveSamples = self.liveSamples ∧
    self.countLive.pending = self.pending ∧ self.countLive.nextToken = self.nextToken := by
  unfold HeapBpf.countLive
  split <;> exact ⟨rfl, rfl, rfl, rfl⟩

def allocEvent (value : PendingAllocation) (ptr : UInt64) : RawEvent where
  header :=
    { kind := .alloc, unwindMode := config.selectedUnwindMode, token := value.token, pointer := ptr
      size := value.size, weight := value.weight }

theorem recordSample_spec (value : PendingAllocation) (ptr : UInt64) :
    (self.recordSample config hit value ptr).pending = self.pending ∧
      (self.recordSample config hit value ptr).nextToken = self.nextToken ∧
      (self.recordSample config hit value ptr).events = self.events ++
        (if !hit.liveUpdateFails && hit.reserve .alloc then [allocEvent config value ptr] else []) ∧
      (hit.liveUpdateFails = false → hit.evicted = [] → ∀ a,
        (self.recordSample config hit value ptr).liveSamples.lookup a =
        if a = ptr then some value.token else self.liveSamples.lookup a) := by
  unfold HeapBpf.recordSample
  extract_lets live k
  obtain ⟨ce, cl, cp, ct⟩ := countLive_frame { self with liveSamples := live }
  have hlook : hit.evicted = [] →
    ∀ a, live.lookup a = if a = ptr then some value.token else self.liveSamples.lookup a :=
    fun he a => by
      simp only [live, Table.lookup_insert, Table.lookup_retain, he]
      cases self.liveSamples.lookup a <;> simp [Option.filter]
  by_cases hf : hit.liveUpdateFails = true
  · simp only [hf, ite_true]
    exact ⟨rfl, rfl, (List.append_nil _).symm, fun h => by cases h⟩
  · simp only [hf]
    unfold HeapBpf.emitControl
    by_cases hr : hit.reserve .alloc = true
    · simp only [hr]
      exact ⟨cp, ct, congrArg (· ++ _) ce, fun _ he a => (congrArg (·.lookup a) cl).trans (hlook he a)⟩
    · simp only [hr]
      exact ⟨cp, ct, ce.trans (List.append_nil _).symm, fun _ he a => (congrArg (·.lookup a) cl).trans (hlook he a)⟩

theorem finishAllocation_none (posixMemalign : Bool) (h : self.pending.lookup hit.tid = none) :
    self.finishAllocation config hit posixMemalign = self := by
  unfold HeapBpf.finishAllocation
  rw [h]

theorem releaseOld_spec (value : PendingAllocation) (ptr : UInt64) :
    (self.releaseOld config hit value ptr).pending = self.pending ∧
      (self.releaseOld config hit value ptr).nextToken = self.nextToken ∧
      (∀ a, (self.releaseOld config hit value ptr).liveSamples.lookup a =
        if HeapBpf.releasesOld value ptr && a = value.oldPtr then none else self.liveSamples.lookup a) ∧
      ∃ frees, (self.releaseOld config hit value ptr).events = self.events ++ frees ∧
        ∀ e ∈ frees, e.header.kind = .free ∧ HeapBpf.releasesOld value ptr = true ∧
          self.liveSamples.lookup value.oldPtr = some e.header.token := by
  unfold HeapBpf.releaseOld
  by_cases h : HeapBpf.releasesOld value ptr = true
  · obtain ⟨hp, ht, hl, es, he, hk⟩ := releaseSample_spec self config hit value.oldPtr
    simp only [h, ite_true, Bool.true_and, decide_eq_true_eq]
    exact ⟨hp, ht, hl, es, he, fun e h => ⟨(hk e h).1, trivial, (hk e h).2⟩⟩
  · simp only [h, Bool.false_and]
    exact ⟨rfl, rfl, fun _ => rfl, [], (List.append_nil _).symm, by simp⟩

def exitAllocs (value : PendingAllocation) (ptr : UInt64) : List RawEvent :=
  if value.sampled && ptr ≠ 0 && !hit.liveUpdateFails && hit.reserve .alloc then [allocEvent config value ptr] else []

theorem recordNew_spec (value : PendingAllocation) (ptr : UInt64) :
    (self.recordNew config hit value ptr).pending = self.pending ∧
      (self.recordNew config hit value ptr).nextToken = self.nextToken ∧
      (self.recordNew config hit value ptr).events = self.events ++ exitAllocs config hit value ptr ∧
      (hit.liveUpdateFails = false → hit.evicted = [] →
        ∀ a, (self.recordNew config hit value ptr).liveSamples.lookup a =
        if value.sampled && ptr ≠ 0 && a = ptr then some value.token else self.liveSamples.lookup a) := by
  unfold HeapBpf.recordNew exitAllocs
  by_cases h : (value.sampled && ptr ≠ 0) = true
  · obtain ⟨hp, ht, he, hl⟩ := recordSample_spec self config hit value ptr
    simp only [h, ite_true, Bool.true_and, decide_eq_true_eq]
    exact ⟨hp, ht, he, hl⟩
  · simp only [h, Bool.false_and]
    exact ⟨rfl, rfl, (List.append_nil _).symm, fun _ _ _ => rfl⟩

/-- An exit consumes the thread's pending value: it releases the old block of a
`realloc` and records a sampled block that was returned. -/
theorem finishAllocation_spec (posixMemalign : Bool) {value : PendingAllocation}
    (h : self.pending.lookup hit.tid = some value) :
    let ptr := HeapBpf.returnedPtr hit posixMemalign value.outputPtr
    let next := self.finishAllocation config hit posixMemalign
    next.pending = self.pending.erase hit.tid ∧ next.nextToken = self.nextToken ∧
      (hit.liveUpdateFails = false → hit.evicted = [] → ∀ a, next.liveSamples.lookup a =
        if value.sampled && ptr ≠ 0 && a = ptr then some value.token
        else if HeapBpf.releasesOld value ptr && a = value.oldPtr then none
        else self.liveSamples.lookup a) ∧
      ∃ frees, next.events = self.events ++ frees ++ exitAllocs config hit value ptr ∧
        ∀ e ∈ frees, e.header.kind = .free ∧ HeapBpf.releasesOld value ptr = true ∧
          self.liveSamples.lookup value.oldPtr = some e.header.token := by
  intro ptr next
  obtain ⟨hp, ht, hl, frees, he, hk⟩ := releaseOld_spec self config hit value ptr
  obtain ⟨rp, rt, re, rl⟩ := recordNew_spec (self.releaseOld config hit value ptr) config hit value ptr
  have hnext : next = { (self.releaseOld config hit value ptr).recordNew config hit value ptr with
      pending := ((self.releaseOld config hit value ptr).recordNew config hit value ptr).pending.erase hit.tid } := by
    simp only [next, HeapBpf.finishAllocation, h, ptr]
  rw [hnext]
  refine ⟨by rw [rp, hp], rt.trans ht, fun hf hev a => ?_, frees, by rw [re, he], hk⟩
  rw [rl hf hev, hl]

theorem exit_pending (fn : AllocFn) : (fn.exit config hit self).pending = self.pending.erase hit.tid := by
  rw [exit_eq]
  cases h : self.pending.lookup hit.tid with
  | none => rw [finishAllocation_none self config hit _ h, Table.erase_of_notMem (Table.notMem_iff.mpr h)]
  | some value => exact (finishAllocation_spec self config hit _ h).1

end

end RustProfile
