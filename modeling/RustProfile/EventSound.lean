import RustProfile.Event
import Mathlib.Data.List.Induction
import Mathlib.Data.List.TakeWhile

/-!
# The sorter sorts, and keeps every sample

Every operation acts on the list of samples held, in the order they will leave:
an arriving sample is put behind its equals, and samples leave at the head. While
no sample is later than the reorder time and the cap is never reached, what has
left and what is held together are the stable sort of what was pushed.
-/

namespace RustProfile

open Queues

namespace PerfEventSorter

/-! ## What the operations do to the samples held -/

/-- The sorter holds `held`, in the order in which they will leave. -/
structure Holds (sorter : PerfEventSorter) (held : List PerfSample) : Prop where
  keyed : Keyed PerfSample.time sorter.pending
  items : items sorter.pending = held
  length : sorter.pendingLen = held.length
  counter : sorter.forcedFlushes ≤ u64Max

def SameBut (self next : PerfEventSorter) : Prop :=
  next = { self with pending := next.pending, pendingLen := next.pendingLen }

theorem SameBut.refl (self : PerfEventSorter) : SameBut self self := rfl

section
variable {before next : PerfEventSorter} (h : SameBut before next)

include h

theorem SameBut.maxPending : next.maxPending = before.maxPending := by rw [h]
theorem SameBut.reorderNanos : next.reorderNanos = before.reorderNanos := by rw [h]
theorem SameBut.maxSeen : next.maxSeen = before.maxSeen := by rw [h]
theorem SameBut.forcedFlushes : next.forcedFlushes = before.forcedFlushes := by rw [h]

end

theorem SameBut.trans {a b c : PerfEventSorter} (hab : SameBut a b) (hbc : SameBut b c) : SameBut a c := by
  unfold SameBut at *
  rw [hab] at hbc
  exact hbc

variable {self : PerfEventSorter} {held : List PerfSample} {sample : PerfSample}

theorem holds_new (reorderNanos maxPending : ℕ) : Holds (new reorderNanos maxPending) [] :=
  ⟨keyed_empty, rfl, rfl, Nat.zero_le _⟩

theorem popOldest_nil (h : Holds self []) : self.popOldest = (none, self) := by
  have he := h.keyed.entries_of_items_nil h.items
  simp [popOldest, OrdMap.first, he]

theorem first_of_holds (h : Holds self (sample :: held)) :
    ∃ queue rest, self.pending.entries = (sample.time, sample :: queue) :: rest ∧
      held = queue ++ rest.flatMap (·.2) := by
  have hi := h.items
  unfold items at hi
  cases he : self.pending.entries with
  | nil => simp [he] at hi
  | cons e rest =>
    obtain ⟨timestamp, q⟩ := e
    obtain ⟨hne, hk⟩ := h.keyed (timestamp, q) (he ▸ List.mem_cons_self)
    rw [he, List.flatMap_cons] at hi
    cases q with
    | nil => exact absurd rfl hne
    | cons a queue =>
      obtain ⟨rfl, rfl⟩ := List.cons.inj hi
      exact ⟨queue, rest, by rw [hk a List.mem_cons_self], rfl⟩

theorem popOldest_cons (h : Holds self (sample :: held)) :
    self.popOldest.1 = some sample ∧ Holds self.popOldest.2 held ∧ SameBut self self.popOldest.2 := by
  obtain ⟨queue, rest, he, rfl⟩ := first_of_holds h
  have hfirst : self.pending.first = some (sample.time, sample :: queue) := by simp [OrdMap.first, he]
  have hlen : self.pendingLen - 1 = (queue ++ rest.flatMap (·.2)).length := by
    rw [h.length, List.length_cons, Nat.add_sub_cancel]
  have hrest : ∀ e ∈ rest, e.2 ≠ [] ∧ ∀ a ∈ e.2, a.time = e.1 := fun e hm =>
    h.keyed e (he ▸ List.mem_cons_of_mem _ hm)
  unfold popOldest
  rw [hfirst]
  refine ⟨rfl, ?_, rfl⟩
  cases queue with
  | nil =>
    have hp := OrdMap.entries_erase_first he
    refine ⟨?_, ?_, hlen, h.counter⟩
    · intro e hm
      simp only [List.tail_cons, List.isEmpty_nil, ite_true, hp] at hm
      exact hrest e hm
    · simp [items, hp]
  | cons next queue =>
    have hp := OrdMap.entries_set_first he (next :: queue)
    refine ⟨?_, ?_, hlen, h.counter⟩
    · intro e hm
      simp only [List.tail_cons, List.isEmpty_cons, Bool.false_eq_true, ite_false, hp] at hm
      rcases List.mem_cons.mp hm with rfl | hm
      · have hq := h.keyed (sample.time, sample :: next :: queue) (he ▸ List.mem_cons_self)
        exact ⟨by simp, fun a ha => hq.2 a (List.mem_cons_of_mem _ ha)⟩
      · exact hrest e hm
    · simp [items, hp]

theorem drainBefore_spec (watermark : ℕ) : ∀ {held : List PerfSample} {self : PerfEventSorter}, Holds self held →
    (self.drainBefore watermark).1 = held.takeWhile (·.time ≤ watermark) ∧
      Holds (self.drainBefore watermark).2 (held.dropWhile (·.time ≤ watermark)) ∧
      SameBut self (self.drainBefore watermark).2
  | [], self, h => by
    have hf : self.pending.first = none := by simp [OrdMap.first, h.keyed.entries_of_items_nil h.items]
    have he : self.drainBefore watermark = ([], self) := by rw [drainBefore]; split <;> simp_all
    rw [he]
    exact ⟨rfl, h, SameBut.refl self⟩
  | sample :: held, self, h => by
    obtain ⟨queue, rest, hes, -⟩ := first_of_holds h
    have hf : self.pending.first = some (sample.time, sample :: queue) := by simp [OrdMap.first, hes]
    by_cases hw : sample.time ≤ watermark
    · obtain ⟨hp, hnext, hsame⟩ := popOldest_cons h
      obtain ⟨h1, h2, h3⟩ := drainBefore_spec watermark hnext
      have he : self.drainBefore watermark = (sample :: (self.popOldest.2.drainBefore watermark).1,
          (self.popOldest.2.drainBefore watermark).2) := by
        rw [drainBefore]
        split
        · rename_i hn; rw [hf] at hn; cases hn
        · rename_i hn
          rw [hf] at hn
          cases hn
          rw [if_neg (not_lt.mpr hw), hp]
          rfl
      rw [he, List.takeWhile_cons_of_pos (by simpa using hw), List.dropWhile_cons_of_pos (by simpa using hw), h1]
      exact ⟨rfl, h2, hsame.trans h3⟩
    · have he : self.drainBefore watermark = ([], self) := by
        rw [drainBefore]
        split
        · rfl
        · rename_i hn
          rw [hf] at hn
          cases hn
          rw [if_pos (not_le.mp hw)]
      rw [he, List.takeWhile_cons_of_neg (by simpa using hw), List.dropWhile_cons_of_neg (by simpa using hw)]
      exact ⟨rfl, h, SameBut.refl self⟩

/-- The capacity loop takes out what is too many and counts it. -/
theorem forceFlush_spec : ∀ {held : List PerfSample} {self : PerfEventSorter}, Holds self held →
    self.forceFlush.1 = held.take (held.length - self.maxPending) ∧
      Holds self.forceFlush.2 (held.drop (held.length - self.maxPending)) ∧
      self.forceFlush.2 = { self with
        pending := self.forceFlush.2.pending
        pendingLen := self.forceFlush.2.pendingLen
        forcedFlushes := saturatingAddU64 self.forcedFlushes (held.length - self.maxPending) }
  | [], self, h => by
    have he : self.forceFlush = ([], self) := by rw [forceFlush, if_neg (by rw [h.length]; simp)]
    rw [he, List.length_nil, Nat.zero_sub, saturatingAddU64_zero h.counter]
    exact ⟨rfl, h, rfl⟩
  | sample :: held, self, h => by
    -- The induction is on the samples held: a pass pops the oldest and counts it once.
    by_cases hm : (sample :: held).length > self.maxPending
    · obtain ⟨hp, hnext, hsame⟩ := popOldest_cons h
      have hcount : self.popOldest.2.forcedFlushes = self.forcedFlushes := hsame.forcedFlushes
      have hmax : self.popOldest.2.maxPending = self.maxPending := hsame.maxPending
      have hnext' : Holds { self.popOldest.2 with
          forcedFlushes := saturatingAddU64 self.popOldest.2.forcedFlushes 1 } held :=
        ⟨hnext.keyed, hnext.items, hnext.length, min_le_right _ _⟩
      obtain ⟨h1, h2, h3⟩ := forceFlush_spec hnext'
      have he : self.forceFlush = (sample :: { self.popOldest.2 with
            forcedFlushes := saturatingAddU64 self.popOldest.2.forcedFlushes 1 }.forceFlush.1,
          { self.popOldest.2 with
            forcedFlushes := saturatingAddU64 self.popOldest.2.forcedFlushes 1 }.forceFlush.2) := by
        rw [forceFlush, if_pos (by rwa [h.length])]
        split
        · rename_i hn
          rw [hp] at hn
          cases hn
          rfl
        · rename_i hn; rw [hp] at hn; cases hn
      have hn : (sample :: held).length - self.maxPending = (held.length - self.maxPending) + 1 := by
        rw [List.length_cons] at *; omega
      have hadd : saturatingAddU64 (saturatingAddU64 self.forcedFlushes 1) (held.length - self.maxPending) =
          saturatingAddU64 self.forcedFlushes (held.length - self.maxPending + 1) := by
        rw [saturatingAddU64_assoc, Nat.add_comm]
      simp only [hmax, hcount] at h1 h2 h3 he
      rw [he, hn, List.take_succ_cons, List.drop_succ_cons, h1]
      refine ⟨rfl, h2, ?_⟩
      rw [h3, hsame]
      simp only [hadd]
    · have hn : (sample :: held).length - self.maxPending = 0 := Nat.sub_eq_zero_of_le (not_lt.mp hm)
      have he : self.forceFlush = ([], self) := by rw [forceFlush, if_neg (by rwa [h.length])]
      rw [he, hn, saturatingAddU64_zero h.counter]
      exact ⟨rfl, h, rfl⟩

theorem length_forceFlush (h : Holds self held) : self.forceFlush.2.pendingLen ≤ self.maxPending := by
  rw [(forceFlush_spec h).2.1.length, List.length_drop]
  omega

theorem enqueue_spec (h : Holds self held) (sample : PerfSample) :
    Holds (self.enqueue sample) (insertBehind PerfSample.time sample held) := by
  refine ⟨h.keyed.enqueue sample, (items_enqueue h.keyed sample).trans (by rw [h.items]), ?_, h.counter⟩
  change self.pendingLen + 1 = _
  rw [h.length, length_insertBehind]

theorem flush_spec : ∀ {held : List PerfSample} {self : PerfEventSorter}, Holds self held →
    self.flush.1 = held ∧ Holds self.flush.2 [] ∧ SameBut self self.flush.2
  | [], self, h => by
    have he : self.flush = ([], self) := by rw [flush]; split <;> simp_all [popOldest_nil h]
    rw [he]
    exact ⟨rfl, h, SameBut.refl self⟩
  | sample :: held, self, h => by
    obtain ⟨hp, hnext, hsame⟩ := popOldest_cons h
    obtain ⟨h1, h2, h3⟩ := flush_spec hnext
    have he : self.flush = (sample :: self.popOldest.2.flush.1, self.popOldest.2.flush.2) := by
      rw [flush]
      split
      · rename_i hn
        rw [hp] at hn
        cases hn
        rfl
      · rename_i hn; rw [hp] at hn; cases hn
    rw [he, h1]
    exact ⟨rfl, h2, hsame.trans h3⟩

theorem advance_spec (h : Holds self held) (sample : PerfSample) :
    let arrived := insertBehind PerfSample.time sample held
    let watermark := max self.maxSeen sample.time - self.reorderNanos
    (self.advance sample).1 = arrived.takeWhile (·.time ≤ watermark) ∧
      Holds (self.advance sample).2 (arrived.dropWhile (·.time ≤ watermark)) ∧
      SameBut (self.enqueue sample) (self.advance sample).2 :=
  drainBefore_spec _ (enqueue_spec h sample)

theorem push_frame (h : Holds self held) (sample : PerfSample) :
    (self.push sample).2.reorderNanos = self.reorderNanos ∧ (self.push sample).2.maxPending = self.maxPending ∧
      (self.push sample).2.maxSeen = max self.maxSeen sample.time := by
  obtain ⟨-, hkept, hsame⟩ := advance_spec h sample
  have hflush := (forceFlush_spec hkept).2.2
  exact ⟨(congrArg PerfEventSorter.reorderNanos hflush).trans hsame.reorderNanos,
    (congrArg PerfEventSorter.maxPending hflush).trans hsame.maxPending,
    (congrArg PerfEventSorter.maxSeen hflush).trans hsame.maxSeen⟩

theorem pushAll_append : ∀ (as bs : List PerfSample) (self : PerfEventSorter),
    self.pushAll (as ++ bs) =
      ((self.pushAll as).1 ++ ((self.pushAll as).2.pushAll bs).1, ((self.pushAll as).2.pushAll bs).2)
  | [], _, _ => rfl
  | a :: as, bs, self => by simp only [List.cons_append, pushAll, pushAll_append as bs, List.append_assoc]

theorem pushAll_singleton (self : PerfEventSorter) (sample : PerfSample) :
    self.pushAll [sample] = self.push sample := by simp [pushAll]

end PerfEventSorter

/-! ## The sorter sorts -/

def largestTime (samples : List PerfSample) : ℕ := (samples.map PerfSample.time).foldl max 0

def WithinReorder (reorderNanos : ℕ) (samples : List PerfSample) : Prop :=
  ∀ before sample after, samples = before ++ sample :: after → largestTime before - reorderNanos ≤ sample.time

/-- What is held back after each push fits, so that the capacity loop has nothing to do. -/
def NeverCapped (reorderNanos maxPending : ℕ) (samples : List PerfSample) : Prop :=
  ∀ before sample after, samples = before ++ sample :: after →
    (((PerfEventSorter.new reorderNanos maxPending).pushAll before).2.advance sample).2.pendingLen ≤ maxPending

theorem largestTime_snoc (samples : List PerfSample) (sample : PerfSample) :
    largestTime (samples ++ [sample]) = max (largestTime samples) sample.time := by simp [largestTime]

theorem largestTime_le {samples : List PerfSample} {bound : ℕ} :
    largestTime samples ≤ bound ↔ ∀ sample ∈ samples, sample.time ≤ bound := by
  induction samples using List.reverseRecOn with
  | nil => simp [largestTime]
  | append_singleton samples sample ih =>
    rw [largestTime_snoc, max_le_iff, ih]
    simp [or_imp, forall_and]

theorem withinReorder_iff {reorderNanos : ℕ} {samples : List PerfSample} :
    WithinReorder reorderNanos samples ↔ samples.Pairwise fun a b => a.time - reorderNanos ≤ b.time := by
  unfold WithinReorder
  constructor
  · intro h
    refine List.pairwise_iff_forall_sublist.mpr fun {a b} hab => ?_
    obtain ⟨before, rest, rfl, ha, hb⟩ := List.cons_sublist_iff.mp hab
    obtain ⟨middle, after, rfl⟩ := List.append_of_mem (List.singleton_sublist.mp hb)
    have hle := h (before ++ middle) b after (List.append_assoc _ _ _).symm
    have hmem := (largestTime_le.mp (le_refl (largestTime (before ++ middle)))) a (List.mem_append_left _ ha)
    omega
  · rintro h before sample after rfl
    have hall : ∀ b ∈ before, b.time ≤ sample.time + reorderNanos := by
      intro b hb
      have := (List.pairwise_append.mp h).2.2 b hb sample List.mem_cons_self
      omega
    have := largestTime_le.mpr hall
    omega

instance (reorderNanos : ℕ) (samples : List PerfSample) : Decidable (WithinReorder reorderNanos samples) :=
  decidable_of_iff _ withinReorder_iff.symm

open PerfEventSorter

theorem holds_pushAll (reorderNanos maxPending : ℕ) (samples : List PerfSample) :
    ∃ held, Holds ((new reorderNanos maxPending).pushAll samples).2 held ∧ held.length ≤ samples.length := by
  induction samples using List.reverseRecOn with
  | nil => exact ⟨[], holds_new _ _, le_refl _⟩
  | append_singleton samples sample ih =>
    obtain ⟨held, hheld, hle⟩ := ih
    rw [pushAll_append, pushAll_singleton]
    obtain ⟨-, hkept, -⟩ := advance_spec hheld sample
    refine ⟨_, (forceFlush_spec hkept).2.1, ?_⟩
    rw [List.length_append, List.length_singleton, List.length_drop]
    refine (Nat.sub_le _ _).trans ((List.dropWhile_sublist _).length_le.trans ?_)
    rw [length_insertBehind]
    omega

theorem neverCapped_of_length_le {maxPending : ℕ} (reorderNanos : ℕ) {samples : List PerfSample}
    (h : samples.length ≤ maxPending) : NeverCapped reorderNanos maxPending samples := by
  rintro before sample after rfl
  obtain ⟨held, hheld, hle⟩ := holds_pushAll reorderNanos maxPending before
  rw [(advance_spec hheld sample).2.1.length]
  refine (List.dropWhile_sublist _).length_le.trans ?_
  rw [length_insertBehind]
  simp only [List.length_append, List.length_cons] at h
  omega

/-- Pushed so far: what has left and what is held are the stable sort, and what has left is old enough. -/
structure Sorting (sorter : PerfEventSorter) (reorderNanos maxPending : ℕ) (emitted pushed : List PerfSample) :
    Prop where
  reorder : sorter.reorderNanos = reorderNanos
  cap : sorter.maxPending = maxPending
  maxSeen : sorter.maxSeen = largestTime pushed
  old : ∀ b ∈ emitted, b.time ≤ largestTime pushed - reorderNanos
  sorted : ∃ held, Holds sorter held ∧ StablySorted PerfSample.time (emitted ++ held) pushed

section
variable {sorter : PerfEventSorter} {reorderNanos maxPending : ℕ} {emitted pushed samples : List PerfSample}
  {sample : PerfSample}

theorem Sorting.push (h : Sorting sorter reorderNanos maxPending emitted pushed)
    (hlate : largestTime pushed - reorderNanos ≤ sample.time)
    (hfits : (sorter.advance sample).2.pendingLen ≤ maxPending) :
    Sorting (sorter.push sample).2 reorderNanos maxPending (emitted ++ (sorter.push sample).1)
      (pushed ++ [sample]) := by
  obtain ⟨held, hheld, hsorted⟩ := h.sorted
  obtain ⟨hready, hkept, hsame⟩ := advance_spec hheld sample
  have hmax : (sorter.advance sample).2.maxPending = maxPending := hsame.maxPending.trans h.cap
  obtain ⟨hforced, hlast, -⟩ := forceFlush_spec hkept
  rw [hmax] at hforced hlast
  have hzero : ∀ l : List PerfSample, (sorter.advance sample).2.pendingLen = l.length → l.length - maxPending = 0 :=
    fun l hl => Nat.sub_eq_zero_of_le (hl ▸ hfits)
  rw [hzero _ hkept.length] at hforced hlast
  have harr := hsorted.arrive fun b hb => (h.old b hb).trans hlate
  rw [h.maxSeen, h.reorder, ← largestTime_snoc] at hready hlast
  have hpush : (sorter.push sample).1 = (sorter.advance sample).1 := by
    rw [PerfEventSorter.push, hforced, List.take_zero, List.append_nil]
  obtain ⟨hr, hc, hs⟩ := push_frame hheld sample
  refine ⟨hr.trans h.reorder, hc.trans h.cap, ?_, fun b hb => ?_, ?_⟩
  · rw [hs, h.maxSeen, largestTime_snoc]
  · rw [hpush, hready] at hb
    rcases List.mem_append.mp hb with hb | hb
    · have hle := h.old b hb
      rw [largestTime_snoc]
      omega
    · simpa using List.mem_takeWhile_imp hb
  · refine ⟨_, hlast, ?_⟩
    rwa [hpush, hready, List.drop_zero, List.append_assoc, List.takeWhile_append_dropWhile]

theorem sorting_pushAll (hlate : WithinReorder reorderNanos samples)
    (hfits : NeverCapped reorderNanos maxPending samples) (before after : List PerfSample)
    (h : samples = before ++ after) :
    Sorting ((new reorderNanos maxPending).pushAll before).2 reorderNanos maxPending
      ((new reorderNanos maxPending).pushAll before).1 before := by
  induction before using List.reverseRecOn generalizing after with
  | nil => exact ⟨rfl, rfl, rfl, fun _ hb => absurd hb List.not_mem_nil, [], holds_new _ _, StablySorted.nil⟩
  | append_singleton before sample ih =>
    rw [List.append_assoc, List.singleton_append] at h
    have hs := (ih (sample :: after) h).push (hlate before sample after h) (hfits before sample after h)
    rwa [pushAll_append, pushAll_singleton]

/-- **The sorter sorts.** -/
theorem pushAll_flush_sorts (hlate : WithinReorder reorderNanos samples)
    (hfits : NeverCapped reorderNanos maxPending samples) :
    let pushed := (new reorderNanos maxPending).pushAll samples
    let sorted := samples.mergeSort fun a b => a.time ≤ b.time
    pushed.1 ++ pushed.2.flush.1 = sorted ∧
      ∀ before after, samples = before ++ after → ((new reorderNanos maxPending).pushAll before).1 <+: sorted := by
  intro pushed sorted
  obtain ⟨held, hheld, hsorted⟩ := (sorting_pushAll hlate hfits samples [] (List.append_nil _).symm).sorted
  have hall : pushed.1 ++ pushed.2.flush.1 = sorted := by
    rw [(flush_spec hheld).1]
    exact hsorted.unique (stablySorted_mergeSort samples)
  refine ⟨hall, fun before after h => ?_⟩
  rw [← hall]
  have hp : pushed.1 = ((new reorderNanos maxPending).pushAll before).1 ++
      (((new reorderNanos maxPending).pushAll before).2.pushAll after).1 := by
    change ((new reorderNanos maxPending).pushAll samples).1 = _
    rw [h, pushAll_append]
  rw [hp, List.append_assoc]
  exact List.prefix_append _ _

end

def sampleAt (time : ℕ) : PerfSample := ⟨1, 1, time, 1, .framePointer [1]⟩

theorem pushAll_flush_sorts_three :
    let pushed := (new 10 16).pushAll [sampleAt 100, sampleAt 95, sampleAt 110]
    let sorted := [sampleAt 100, sampleAt 95, sampleAt 110].mergeSort fun a b => a.time ≤ b.time
    pushed.1 ++ pushed.2.flush.1 = sorted ∧
      ∀ before after, [sampleAt 100, sampleAt 95, sampleAt 110] = before ++ after →
        ((new 10 16).pushAll before).1 <+: sorted :=
  pushAll_flush_sorts (by decide) (neverCapped_of_length_le 10 (by decide))

/-! ## No sample is lost -/

inductive SorterOp where
  | push (sample : PerfSample)
  | flush
  | takeStats

namespace SorterOp

def arrived : SorterOp → List PerfSample
  | push sample => [sample]
  | flush => []
  | takeStats => []

def run (sorter : PerfEventSorter) : SorterOp → List PerfSample × PerfEventSorter
  | push sample => sorter.push sample
  | flush => sorter.flush
  | takeStats => ([], sorter.takeStats.2)

def forced (sorter : PerfEventSorter) : SorterOp → List PerfSample
  | push sample => (sorter.advance sample).2.forceFlush.1
  | flush => []
  | takeStats => []

end SorterOp

/-- A sorter with its history: the samples waiting are listed as they were pushed, `forced` are those emitted by the
cap since the last report, and each report is paired with those emitted by the cap before it. -/
structure SorterRun where
  sorter : PerfEventSorter
  pushed : List PerfSample
  emitted : List PerfSample
  waiting : List PerfSample
  forced : List PerfSample
  reports : List (ℕ × List PerfSample)

namespace SorterRun

def start (reorderNanos maxPending : ℕ) : SorterRun := ⟨new reorderNanos maxPending, [], [], [], [], []⟩

def next (r : SorterRun) (op : SorterOp) : SorterRun where
  sorter := (op.run r.sorter).2
  pushed := r.pushed ++ op.arrived
  emitted := r.emitted ++ (op.run r.sorter).1
  waiting := (r.waiting ++ op.arrived).diff (op.run r.sorter).1
  forced := match op with
    | .takeStats => []
    | op => r.forced ++ op.forced r.sorter
  reports := match op with
    | .takeStats => r.reports ++ [(r.sorter.takeStats.1.2, r.forced)]
    | _ => r.reports

end SorterRun

def sorterRun (reorderNanos maxPending : ℕ) (ops : List SorterOp) : SorterRun :=
  ops.foldl SorterRun.next (SorterRun.start reorderNanos maxPending)

/-- Each sample leaves as the first of those with the least time that are waiting. -/
def TakesOldest : List PerfSample → List PerfSample → Prop
  | _, [] => True
  | waiting, sample :: ready => oldest PerfSample.time waiting = some sample ∧ TakesOldest (waiting.erase sample) ready

theorem takesOldest_of_sorted {held : List PerfSample} : ∀ {ready waiting : List PerfSample},
    StablySorted PerfSample.time (ready ++ held) waiting →
      TakesOldest waiting ready ∧ StablySorted PerfSample.time held (waiting.diff ready)
  | [], _, h => ⟨trivial, h⟩
  | sample :: ready, waiting, h => by
    obtain ⟨hold, hrest⟩ := h.leave
    obtain ⟨htakes, hheld⟩ := takesOldest_of_sorted hrest
    rw [List.diff_cons]
    exact ⟨⟨hold, htakes⟩, hheld⟩

section
variable {sorter : PerfEventSorter} {held waiting : List PerfSample} (h : Holds sorter held)
  (hs : StablySorted PerfSample.time held waiting) (op : SorterOp)

include h hs

/-- Whatever the operation, what it emits and what is held after it sort what was waiting. -/
theorem SorterOp.run_sorted : ∃ held', Holds (op.run sorter).2 held' ∧
    StablySorted PerfSample.time ((op.run sorter).1 ++ held') (waiting ++ op.arrived) := by
  cases op with
  | push sample =>
    obtain ⟨hready, hkept, -⟩ := advance_spec h sample
    obtain ⟨hforced, hlast, -⟩ := forceFlush_spec hkept
    have harr : StablySorted PerfSample.time ([] ++ insertBehind PerfSample.time sample held) (waiting ++ [sample]) :=
      @StablySorted.arrive _ _ _ _ held waiting sample [] hs fun _ hb => absurd hb List.not_mem_nil
    refine ⟨_, hlast, ?_⟩
    simp only [SorterOp.run, SorterOp.arrived, PerfEventSorter.push, hready, hforced]
    rwa [List.append_assoc, List.take_append_drop, List.takeWhile_append_dropWhile]
  | flush =>
    obtain ⟨hready, hlast, -⟩ := flush_spec h
    refine ⟨[], hlast, ?_⟩
    simp only [SorterOp.run, SorterOp.arrived, hready, List.append_nil]
    exact hs
  | takeStats =>
    refine ⟨held, ⟨h.keyed, h.items, h.length, Nat.zero_le _⟩, ?_⟩
    simp only [SorterOp.run, SorterOp.arrived, List.append_nil, List.nil_append]
    exact hs

/-- Only samples above the watermark are forced out. -/
theorem SorterOp.watermark_lt_forced (sample : PerfSample) (hm : sample ∈ op.forced sorter) :
    (op.run sorter).2.watermark < sample.time := by
  cases op with
  | push arriving =>
    obtain ⟨hr, -, hmax⟩ := push_frame h arriving
    obtain ⟨-, hkept, -⟩ := advance_spec h arriving
    have hw : (SorterOp.run sorter (.push arriving)).2.watermark =
        max sorter.maxSeen arriving.time - sorter.reorderNanos := by
      simp only [SorterOp.run, watermark, hr, hmax]
    rw [SorterOp.forced, (forceFlush_spec hkept).1] at hm
    rw [hw]
    exact lt_of_mem_dropWhile (insertBehind_sorted hs.sorted) (List.mem_of_mem_take hm)
  | flush => cases hm
  | takeStats => cases hm

omit hs

theorem SorterOp.maxPending_run : (op.run sorter).2.maxPending = sorter.maxPending := by
  cases op with
  | push sample => exact (push_frame h sample).2.1
  | flush => exact (flush_spec h).2.2.maxPending
  | takeStats => rfl

theorem length_push (sample : PerfSample) : (sorter.push sample).2.pendingLen ≤ sorter.maxPending := by
  obtain ⟨-, hkept, hsame⟩ := advance_spec h sample
  have hle := length_forceFlush hkept
  rwa [hsame.maxPending] at hle

/-- The counter counts what the cap emits, and stops at its top. -/
theorem SorterOp.forcedFlushes_run (n : ℕ) (hn : sorter.forcedFlushes = min n u64Max) (hop : op ≠ .takeStats) :
    (op.run sorter).2.forcedFlushes = min (n + (op.forced sorter).length) u64Max := by
  cases op with
  | push sample =>
    obtain ⟨-, hkept, hsame⟩ := advance_spec h sample
    obtain ⟨hforced, -, hrest⟩ := forceFlush_spec hkept
    have hcount := congrArg PerfEventSorter.forcedFlushes hrest
    have hlen : ∀ l : List PerfSample, (l.take (l.length - (sorter.advance sample).2.maxPending)).length =
        l.length - (sorter.advance sample).2.maxPending := fun l => by
      rw [List.length_take]
      omega
    simp only [SorterOp.run, SorterOp.forced, hforced, hlen]
    refine hcount.trans ?_
    simp only [hsame.forcedFlushes]
    change saturatingAddU64 sorter.forcedFlushes _ = _
    rw [hn]
    unfold saturatingAddU64 Sat.add
    omega
  | flush =>
    simp only [SorterOp.run, SorterOp.forced, List.length_nil, Nat.add_zero]
    rw [(flush_spec h).2.2.forcedFlushes, hn]
  | takeStats => exact absurd rfl hop

end

structure Accounted (maxPending : ℕ) (r : SorterRun) : Prop where
  held : ∃ held, Holds r.sorter held ∧ StablySorted PerfSample.time held r.waiting ∧
    (r.emitted ++ held).Perm r.pushed
  cap : r.sorter.maxPending = maxPending
  counter : r.sorter.forcedFlushes = min r.forced.length u64Max
  reports : ∀ p ∈ r.reports, p.1 = min p.2.length u64Max

theorem accounted_start (reorderNanos maxPending : ℕ) :
    Accounted maxPending (SorterRun.start reorderNanos maxPending) :=
  ⟨⟨[], holds_new _ _, StablySorted.nil, List.Perm.refl _⟩, rfl, rfl, fun _ hp => absurd hp List.not_mem_nil⟩

theorem Accounted.next {maxPending : ℕ} {r : SorterRun} (h : Accounted maxPending r) (op : SorterOp) :
    Accounted maxPending (r.next op) := by
  obtain ⟨held, hheld, hsorted, hperm⟩ := h.held
  obtain ⟨held', hheld', hsorted'⟩ := op.run_sorted hheld hsorted
  refine ⟨⟨held', hheld', (takesOldest_of_sorted hsorted').2, ?_⟩, (op.maxPending_run hheld).trans h.cap, ?_, ?_⟩
  · have hwaiting := hsorted.perm
    have hgone : (r.emitted ++ (op.run r.sorter).1 ++ held').Perm (r.emitted ++ r.waiting ++ op.arrived) := by
      rw [List.append_assoc, List.append_assoc]
      exact hsorted'.perm.append_left _
    have hback : (r.emitted ++ r.waiting ++ op.arrived).Perm (r.emitted ++ held ++ op.arrived) :=
      (hwaiting.symm.append_left _).append_right _
    exact (hgone.trans hback).trans (hperm.append_right _)
  · cases op with
    | push sample =>
      have hc := (SorterOp.push sample).forcedFlushes_run hheld r.forced.length h.counter (by nofun)
      simpa only [SorterRun.next, List.length_append] using hc
    | flush =>
      have hc := SorterOp.flush.forcedFlushes_run hheld r.forced.length h.counter (by nofun)
      simpa only [SorterRun.next, List.length_append] using hc
    | takeStats => rfl
  · cases op with
    | push sample => exact h.reports
    | flush => exact h.reports
    | takeStats =>
      intro p hp
      rcases List.mem_append.mp hp with hp | hp
      · exact h.reports p hp
      · rw [List.mem_singleton.mp hp]
        exact h.counter

theorem accounted_sorterRun (reorderNanos maxPending : ℕ) (ops : List SorterOp) :
    Accounted maxPending (sorterRun reorderNanos maxPending ops) := by
  induction ops using List.reverseRecOn with
  | nil => exact accounted_start _ _
  | append_singleton ops op ih =>
    rw [sorterRun, List.foldl_append]
    exact ih.next op

/-- **No sample is lost or duplicated, and the sorter stays bounded.** -/
theorem sorterRun_accounts (reorderNanos maxPending : ℕ) (ops : List SorterOp) :
    let r := sorterRun reorderNanos maxPending ops
    let queues := r.sorter.pending.entries.map Prod.snd
    (r.emitted ++ queues.flatten).Perm r.pushed ∧
      r.waiting.Perm queues.flatten ∧
      r.sorter.pendingLen = (queues.map List.length).sum ∧
      (∀ queue ∈ queues, queue ≠ []) ∧
      (∀ sample, (r.next (.push sample)).sorter.pendingLen ≤ maxPending) ∧
      (∀ op : SorterOp, TakesOldest (r.waiting ++ op.arrived) (op.run r.sorter).1) ∧
      (∀ op : SorterOp, ∀ sample ∈ op.forced r.sorter, (op.run r.sorter).2.watermark < sample.time) ∧
      (∀ report ∈ r.reports, report.1 = min report.2.length u64Max) ∧
      ((∀ report ∈ r.reports, report.2.length ≤ u64Max) →
        (r.reports.map Prod.fst).sum = (r.reports.flatMap Prod.snd).length) := by
  intro r queues
  have hr := accounted_sorterRun reorderNanos maxPending ops
  obtain ⟨held, hheld, hsorted, hperm⟩ := hr.held
  have hflat : queues.flatten = held := hheld.items
  refine ⟨hflat ▸ hperm, hflat ▸ hsorted.perm.symm, ?_, ?_, ?_, ?_, ?_, hr.reports, ?_⟩
  · rw [← List.length_flatten, hflat]
    exact hheld.length
  · intro queue hq
    obtain ⟨e, he, rfl⟩ := List.mem_map.mp hq
    exact (hheld.keyed e he).1
  · intro sample
    exact (length_push hheld sample).trans hr.cap.le
  · intro op
    obtain ⟨held', -, hsorted'⟩ := op.run_sorted hheld hsorted
    exact (takesOldest_of_sorted hsorted').1
  · intro op sample hm
    exact op.watermark_lt_forced hheld hsorted sample hm
  · intro hsmall
    rw [List.length_flatMap]
    refine congrArg List.sum (List.map_congr_left fun p hp => ?_)
    rw [hr.reports p hp, min_eq_left (hsmall p hp)]

/-- With a cap of 0 every sample above the watermark is forced out at once. -/
theorem forced_replicate (n : ℕ) :
    let r := sorterRun u64Max 0 (List.replicate n (.push (sampleAt 1)))
    Holds r.sorter [] ∧ r.sorter.maxPending = 0 ∧ r.sorter.reorderNanos = u64Max ∧ r.sorter.maxSeen ≤ 1 ∧
      r.forced.length = n ∧ r.reports = [] := by
  induction n with
  | zero => exact ⟨holds_new _ _, rfl, rfl, Nat.zero_le _, rfl, rfl⟩
  | succ n ih =>
    obtain ⟨hheld, hcap, hreorder, hseen, hforced, hreports⟩ := ih
    obtain ⟨-, hkept, hsame⟩ := advance_spec hheld (sampleAt 1)
    have hw : max (sorterRun u64Max 0 (List.replicate n (.push (sampleAt 1)))).sorter.maxSeen (sampleAt 1).time -
        (sorterRun u64Max 0 (List.replicate n (.push (sampleAt 1)))).sorter.reorderNanos = 0 := by
      rw [hreorder]
      exact Nat.sub_eq_zero_of_le (max_le (hseen.trans (by decide)) (by decide))
    rw [hw] at hkept
    obtain ⟨hout, hlast, -⟩ := forceFlush_spec hkept
    rw [hsame.maxPending, show (PerfEventSorter.enqueue _ (sampleAt 1)).maxPending = 0 from hcap] at hout hlast
    obtain ⟨hr, hc, hm⟩ := push_frame hheld (sampleAt 1)
    rw [List.replicate_succ', sorterRun, List.foldl_append]
    refine ⟨hlast, hc.trans hcap, hr.trans hreorder, ?_, ?_, hreports⟩
    · refine hm.le.trans (max_le hseen (le_refl _))
    · exact List.length_append.trans (congrArg₂ (· + ·) hforced (congrArg List.length hout))

theorem reports_replicate (n : ℕ) : ∃ forced : List PerfSample, forced.length = n ∧
    (sorterRun u64Max 0 (List.replicate n (.push (sampleAt 1)) ++ [.takeStats])).reports =
      [(min n u64Max, forced)] := by
  obtain ⟨-, -, -, -, hforced, hreports⟩ := forced_replicate n
  have hacc := accounted_sorterRun u64Max 0 (List.replicate n (.push (sampleAt 1)))
  refine ⟨(sorterRun u64Max 0 (List.replicate n (.push (sampleAt 1)))).forced, hforced, ?_⟩
  rw [sorterRun, List.foldl_append]
  change (sorterRun u64Max 0 (List.replicate n (.push (sampleAt 1)))).reports ++
    [((sorterRun u64Max 0 (List.replicate n (.push (sampleAt 1)))).sorter.forcedFlushes, _)] = _
  rw [hreports, hacc.counter, hforced]
  rfl

theorem report_saturates :
    let r := sorterRun u64Max 0 (List.replicate (2 ^ 64) (.push (sampleAt 1)) ++ [.takeStats])
    (r.reports.map Prod.fst).sum ≠ (r.reports.flatMap Prod.snd).length := by
  obtain ⟨forced, hlen, hr⟩ := reports_replicate (2 ^ 64)
  simp only [hr, List.map_cons, List.map_nil, List.sum_singleton, List.flatMap_cons, List.flatMap_nil,
    List.append_nil, hlen]
  decide

end RustProfile
