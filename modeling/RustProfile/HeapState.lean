import RustProfile.Ints
import RustProfile.Profile
import RustProfile.Lib.Capped

/-!
# Sampled heap state

`HeapState` tracks the sampled allocations that are in use, their totals by
stack, and the allocations of the current window. The loops over a hash map take
the order in which it is visited.
-/

namespace RustProfile

inductive HeapEventKind where
  | alloc
  | free
  deriving DecidableEq, Repr

structure HeapEvent where
  kind : HeapEventKind
  pointer : UInt64
  size : UInt64
  weight : UInt64
  frames : List UInt64
  deriving DecidableEq, Repr

structure LiveAllocation where
  weight : UInt64
  weightedSpace : UInt64
  stack : Stack
  deriving DecidableEq, Repr

structure LiveTotals where
  objects : ℕ := 0
  space : ℕ := 0
  deriving DecidableEq, Repr, Inhabited

@[ext] structure HeapAggregationDrops where
  allocObjects : ℤ := 0
  allocSpace : ℤ := 0
  inuseObjects : ℤ := 0
  inuseSpace : ℤ := 0
  deriving DecidableEq, Repr, Inhabited

structure HeapState where
  live : Table UInt64 LiveAllocation
  windowAllocations : Table Stack HeapValues
  liveTotals : Table Stack LiveTotals
  maxStacks : ℕ
  aggregationDrops : HeapAggregationDrops

/-- The stack an allocation event is charged to. -/
def HeapEvent.stack (event : HeapEvent) : Stack := Stack.ofAddresses event.frames

/-- The space an allocation stands for, as `allocate` computes it. -/
def HeapEvent.weightedSpace (event : HeapEvent) : UInt64 := saturatingMulU64 event.size event.weight

/-- `allocate` ignores an event with a zero pointer, size or weight. -/
def HeapEvent.valid (event : HeapEvent) : Bool := event.pointer ≠ 0 && event.size ≠ 0 && event.weight ≠ 0

def HeapEvent.allocation (event : HeapEvent) (stack : Stack) : LiveAllocation where
  weight := event.weight
  weightedSpace := event.weightedSpace
  stack := stack

namespace LiveTotals

def saturatingAdd (totals : LiveTotals) (allocation : LiveAllocation) : LiveTotals where
  objects := saturatingAddU128 totals.objects allocation.weight.toNat
  space := saturatingAddU128 totals.space allocation.weightedSpace.toNat

/-- `u128::saturating_sub` on both fields. -/
def saturatingSub (totals : LiveTotals) (allocation : LiveAllocation) : LiveTotals where
  objects := totals.objects - allocation.weight.toNat
  space := totals.space - allocation.weightedSpace.toNat

end LiveTotals

/-- `entry(stack).or_default()` followed by the two additions. -/
def addLiveTotals (liveTotals : Table Stack LiveTotals) (allocation : LiveAllocation) : Table Stack LiveTotals :=
  liveTotals.insert allocation.stack (((liveTotals.lookup allocation.stack).getD {}).saturatingAdd allocation)

namespace HeapState

def withMaxStacks (maxStacks : ℕ) : HeapState where
  live := ∅
  windowAllocations := ∅
  liveTotals := ∅
  maxStacks := maxStacks
  aggregationDrops := {}

/-- The stored key equal to `stack`, so that equal stacks share one allocation. -/
def internStack (self : HeapState) (stack : Stack) : Stack :=
  match self.liveTotals.keys.find? (· = stack) with
  | some existing => existing
  | none =>
    match self.windowAllocations.keys.find? (· = stack) with
    | some existing => existing
    | none => stack

def removeLiveTotals (self : HeapState) (allocation : LiveAllocation) : HeapState :=
  match self.liveTotals.lookup allocation.stack with
  | some totals =>
    let totals := totals.saturatingSub allocation
    if totals.objects = 0 ∧ totals.space = 0 then
      { self with liveTotals := self.liveTotals.erase allocation.stack }
    else { self with liveTotals := self.liveTotals.insert allocation.stack totals }
  | none => self

def rebuildLiveTotals (self : HeapState) (iter : IterOrder) : HeapState :=
  { self with liveTotals := (iter.order (self.live.entries.map (·.2))).foldl addLiveTotals ∅ }

/-- The window counters of one allocation: the stack's values, a new entry
below the cap, or the drop counters. -/
def recordWindowAllocation (self : HeapState) (stack : Stack) (allocObjects allocSpace : ℤ) : HeapState :=
  match self.windowAllocations.lookup stack with
  | some values =>
    let values := { values with
      allocObjects := saturatingAddI64 values.allocObjects allocObjects
      allocSpace := saturatingAddI64 values.allocSpace allocSpace }
    { self with windowAllocations := self.windowAllocations.insert stack values }
  | none =>
    if self.windowAllocations.size < self.maxStacks then
      let values : HeapValues := { allocObjects := allocObjects, allocSpace := allocSpace }
      { self with windowAllocations := self.windowAllocations.insert stack values }
    else
      let drops := { self.aggregationDrops with
        allocObjects := saturatingAddI64 self.aggregationDrops.allocObjects allocObjects
        allocSpace := saturatingAddI64 self.aggregationDrops.allocSpace allocSpace }
      { self with aggregationDrops := drops }

def insertLive (self : HeapState) (pointer : UInt64) (allocation : LiveAllocation) : HeapState :=
  match self.live.lookup pointer with
  | some previous => { self with live := self.live.insert pointer allocation }.removeLiveTotals previous
  | none => { self with live := self.live.insert pointer allocation }

def allocate (self : HeapState) (event : HeapEvent) : HeapState :=
  if event.valid then
    let stack := self.internStack event.stack
    let allocObjects := saturatingI64 event.weight.toNat
    let allocSpace := saturatingI64 event.weightedSpace.toNat
    let self := self.recordWindowAllocation stack allocObjects allocSpace
    let allocation := event.allocation stack
    let self := self.insertLive event.pointer allocation
    { self with liveTotals := addLiveTotals self.liveTotals allocation }
  else self

def apply (self : HeapState) (event : HeapEvent) : HeapState :=
  match event.kind with
  | .alloc => self.allocate event
  | .free =>
    match self.live.lookup event.pointer with
    | some allocation => { self with live := self.live.erase event.pointer }.removeLiveTotals allocation
    | none => self

def clearLive (self : HeapState) : HeapState := { self with live := ∅, liveTotals := ∅ }

def liveSampleCount (self : HeapState) : ℕ := self.live.size

def retainLivePointers (self : HeapState) (pointers : Finset UInt64) (iter : IterOrder) : HeapState :=
  { self with live := self.live.retain fun pointer _ => pointer ∈ pointers }.rebuildLiveTotals iter

/-- One turn of the snapshot loop: a stack in use that has an entry or finds
room below the cap is reported, another is dropped. -/
def recordInuse (maxStacks : ℕ) (acc : Table Stack HeapValues × HeapAggregationDrops)
    (entry : Σ _ : Stack, LiveTotals) : Table Stack HeapValues × HeapAggregationDrops :=
  let inuseObjects := saturatingI64 entry.2.objects
  let inuseSpace := saturatingI64 entry.2.space
  match acc.1.lookup entry.1 with
  | some values =>
    (acc.1.insert entry.1 { values with inuseObjects := inuseObjects, inuseSpace := inuseSpace }, acc.2)
  | none =>
    -- a stack that allocated nothing in this window
    if acc.1.size < maxStacks then
      (acc.1.insert entry.1 { inuseObjects := inuseObjects, inuseSpace := inuseSpace }, acc.2)
    else
      (acc.1, { acc.2 with
        inuseObjects := saturatingAddI64 acc.2.inuseObjects inuseObjects
        inuseSpace := saturatingAddI64 acc.2.inuseSpace inuseSpace })

def snapshotWindowWithDrops (self : HeapState) (iter : IterOrder) :
    (Table Stack HeapValues × HeapAggregationDrops) × HeapState :=
  ((iter.order self.liveTotals.entries).foldl (recordInuse self.maxStacks)
      (self.windowAllocations, self.aggregationDrops),
    { self with windowAllocations := ∅, aggregationDrops := {} })

def snapshotWindow (self : HeapState) (iter : IterOrder) : Table Stack HeapValues × HeapState :=
  ((self.snapshotWindowWithDrops iter).1.1, (self.snapshotWindowWithDrops iter).2)

end HeapState

inductive HeapOp where
  | apply (event : HeapEvent)
  | snapshotWindow (iter : IterOrder)
  | clearLive
  | retainLivePointers (pointers : Finset UInt64) (iter : IterOrder)

def HeapState.perform (self : HeapState) : HeapOp → HeapState
  | .apply event => self.apply event
  | .snapshotWindow iter => (self.snapshotWindow iter).2
  | .clearLive => self.clearLive
  | .retainLivePointers pointers iter => self.retainLivePointers pointers iter

def HeapState.performAll (self : HeapState) (ops : List HeapOp) : HeapState := ops.foldl HeapState.perform self

/-! ## Small facts -/

section
variable (self : HeapState)

theorem internStack_eq (stack : Stack) : self.internStack stack = stack := by
  unfold HeapState.internStack
  split
  · rename_i e h; simpa using List.find?_some h
  · split
    · rename_i e h; simpa using List.find?_some h
    · rfl

@[simp] theorem removeLiveTotals_live (a : LiveAllocation) : (self.removeLiveTotals a).live = self.live := by
  unfold HeapState.removeLiveTotals
  split
  · dsimp only; split <;> rfl
  · rfl

@[simp] theorem removeLiveTotals_window (a : LiveAllocation) :
    (self.removeLiveTotals a).windowAllocations = self.windowAllocations ∧
      (self.removeLiveTotals a).aggregationDrops = self.aggregationDrops ∧
      (self.removeLiveTotals a).maxStacks = self.maxStacks := by
  unfold HeapState.removeLiveTotals
  split
  · dsimp only; split <;> exact ⟨rfl, rfl, rfl⟩
  · exact ⟨rfl, rfl, rfl⟩

@[simp] theorem recordWindowAllocation_live (stack : Stack) (o s : ℤ) :
    (self.recordWindowAllocation stack o s).live = self.live ∧
      (self.recordWindowAllocation stack o s).liveTotals = self.liveTotals ∧
      (self.recordWindowAllocation stack o s).maxStacks = self.maxStacks := by
  unfold HeapState.recordWindowAllocation
  split
  · exact ⟨rfl, rfl, rfl⟩
  · split <;> exact ⟨rfl, rfl, rfl⟩

theorem insertLive_live (p : UInt64) (a : LiveAllocation) : (self.insertLive p a).live = self.live.insert p a := by
  unfold HeapState.insertLive
  split <;> simp

theorem insertLive_window (p : UInt64) (a : LiveAllocation) :
    (self.insertLive p a).windowAllocations = self.windowAllocations ∧
      (self.insertLive p a).aggregationDrops = self.aggregationDrops ∧
      (self.insertLive p a).maxStacks = self.maxStacks := by
  unfold HeapState.insertLive
  split <;> simp

theorem mem_allocate_live {event : HeapEvent} {p : UInt64} (h : p ∈ (self.allocate event).live) :
    p ∈ self.live ∨ p = event.pointer := by
  unfold HeapState.allocate at h
  split at h
  · simp only [insertLive_live, recordWindowAllocation_live, AList.mem_insert] at h
    exact h.symm
  · exact Or.inl h

theorem mem_free_live {event : HeapEvent} (hk : event.kind = .free) {p : UInt64}
    (h : p ∈ (self.apply event).live) : p ∈ self.live ∧ p ≠ event.pointer := by
  unfold HeapState.apply at h
  rw [hk] at h
  dsimp only at h
  split at h
  · rw [removeLiveTotals_live] at h
    exact ⟨(AList.mem_erase.mp h).2, (AList.mem_erase.mp h).1⟩
  · rename_i hn
    refine ⟨h, ?_⟩
    rintro rfl
    exact Table.notMem_iff.mpr hn h

theorem mem_retain_live {pointers : Finset UInt64} {iter : IterOrder} {p : UInt64}
    (h : p ∈ (self.retainLivePointers pointers iter).live) : p ∈ pointers := by
  obtain ⟨_, -, hp⟩ := Table.mem_retain.mp h
  simpa using hp

end

end RustProfile
