import RustProfile.Ints
import RustProfile.Unwind
import RustProfile.Lib.Queues

/-!
# The perf event sorter

Samples of several per-CPU rings arrive out of order. The sorter holds each back
until the newest time seen is `reorderNanos` past it, or until more than
`maxPending` are held.
-/

namespace RustProfile

open Queues

structure StackSnapshot where
  registers : RawRegisters
  bytes : List UInt8
  deriving DecidableEq, Repr

inductive PerfSampleData where
  | framePointer (frames : List UInt64)
  | dwarf (snapshot : StackSnapshot)
  deriving DecidableEq, Repr

structure PerfSample where
  pid : UInt32
  tid : UInt32
  time : ℕ
  period : ℕ
  data : PerfSampleData
  deriving DecidableEq, Repr

structure PerfEventSorter where
  pending : OrdMap ℕ (List PerfSample)
  pendingLen : ℕ
  maxPending : ℕ
  reorderNanos : ℕ
  maxSeen : ℕ
  peakPending : ℕ
  forcedFlushes : ℕ

namespace PerfEventSorter

def new (reorderNanos maxPending : ℕ) : PerfEventSorter where
  pending := OrdMap.empty
  pendingLen := 0
  maxPending := maxPending
  reorderNanos := reorderNanos
  maxSeen := 0
  peakPending := 0
  forcedFlushes := 0

def popOldest (self : PerfEventSorter) : Option PerfSample × PerfEventSorter :=
  match self.pending.first with
  | none => (none, self)
  | some (timestamp, queue) =>
    -- the queue is popped in place, and its entry removed when that leaves it empty
    let pending := if queue.tail.isEmpty then self.pending.erase timestamp else self.pending.set timestamp queue.tail
    (queue.head?, { self with
      pending := pending
      pendingLen := if queue.head?.isSome then self.pendingLen - 1 else self.pendingLen })

/-- Entries and samples held, which every turn of the loops below decreases. -/
def weight (self : PerfEventSorter) : ℕ := self.pending.entries.length + (items self.pending).length

theorem weight_popOldest_lt {self : PerfEventSorter} {timestamp : ℕ} {queue : List PerfSample}
    (h : self.pending.first = some (timestamp, queue)) : self.popOldest.2.weight < self.weight := by
  obtain ⟨rest, he⟩ : ∃ rest, self.pending.entries = (timestamp, queue) :: rest := by
    rw [OrdMap.first, List.head?_eq_some_iff] at h
    exact h
  unfold popOldest weight items
  rw [h]
  by_cases hq : queue.tail.isEmpty
  · simp only [hq, ite_true, OrdMap.entries_erase_first he, he, List.length_cons, List.flatMap_cons,
      List.length_append]
    omega
  · have hlen : queue.length ≠ 0 := fun h0 => hq (by simp [List.length_eq_zero_iff.mp h0])
    simp only [hq, ite_false, Bool.false_eq_true, OrdMap.entries_set_first he, he, List.length_cons,
      List.flatMap_cons, List.length_append, List.length_tail]
    omega

theorem weight_lt_of_pop {self : PerfEventSorter} {sample : PerfSample} (h : self.popOldest.1 = some sample) :
    self.popOldest.2.weight < self.weight := by
  cases hf : self.pending.first with
  | none => simp [popOldest, hf] at h
  | some e => exact weight_popOldest_lt hf

def drainBefore (self : PerfEventSorter) (watermark : ℕ) : List PerfSample × PerfEventSorter :=
  match _h : self.pending.first with
  | none => ([], self)
  | some (timestamp, _) =>
    -- newer samples wait for those that may still come
    if timestamp > watermark then ([], self)
    else
      let drained := self.popOldest.2.drainBefore watermark
      (self.popOldest.1.toList ++ drained.1, drained.2)
termination_by self.weight
decreasing_by exact weight_popOldest_lt _h

/-- The loop of `push` that keeps `pendingLen` at most `maxPending`. -/
def forceFlush (self : PerfEventSorter) : List PerfSample × PerfEventSorter :=
  if self.pendingLen > self.maxPending then
    match _h : self.popOldest.1 with
    | some sample =>
      let popped := self.popOldest.2
      let rest := { popped with forcedFlushes := saturatingAddU64 popped.forcedFlushes 1 }.forceFlush
      (sample :: rest.1, rest.2)
    | none => ([], self.popOldest.2)
  else ([], self)
termination_by self.weight
decreasing_by exact weight_lt_of_pop _h

def enqueue (self : PerfEventSorter) (sample : PerfSample) : PerfEventSorter :=
  { self with
    maxSeen := max self.maxSeen sample.time
    pending := self.pending.update sample.time [] (· ++ [sample])
    pendingLen := self.pendingLen + 1
    peakPending := max self.peakPending (self.pendingLen + 1) }

def watermark (self : PerfEventSorter) : ℕ := self.maxSeen - self.reorderNanos

/-- `push` up to its capacity loop. -/
def advance (self : PerfEventSorter) (sample : PerfSample) : List PerfSample × PerfEventSorter :=
  (self.enqueue sample).drainBefore (self.enqueue sample).watermark

def push (self : PerfEventSorter) (sample : PerfSample) : List PerfSample × PerfEventSorter :=
  let drained := self.advance sample
  let forced := drained.2.forceFlush
  (drained.1 ++ forced.1, forced.2)

def flush (self : PerfEventSorter) : List PerfSample × PerfEventSorter :=
  match _h : self.popOldest.1 with
  | some sample =>
    let rest := self.popOldest.2.flush
    (sample :: rest.1, rest.2)
  | none => ([], self.popOldest.2)
termination_by self.weight
decreasing_by exact weight_lt_of_pop _h

def takeStats (self : PerfEventSorter) : (ℕ × ℕ) × PerfEventSorter :=
  ((self.peakPending, self.forcedFlushes), { self with peakPending := 0, forcedFlushes := 0 })

def pushAll (self : PerfEventSorter) : List PerfSample → List PerfSample × PerfEventSorter
  | [] => ([], self)
  | sample :: samples =>
    let pushed := self.push sample
    let rest := pushed.2.pushAll samples
    (pushed.1 ++ rest.1, rest.2)

end PerfEventSorter

end RustProfile
