import RustProfile.HeapTotals

/-!
# Bounded heap windows

A window is capped twice: when an allocation brings a new stack, and when the
snapshot adds the stacks in use. Both are feeds of one table, so what a snapshot
reports and what it drops add up to what happened since the previous one.
-/

namespace RustProfile

/-! ## The events of a window -/

/-- The valid allocations since the last snapshot. -/
def windowStep (events : List HeapEvent) : HeapOp → List HeapEvent
  | .apply event => if event.kind = .alloc ∧ event.valid = true then events ++ [event] else events
  | .snapshotWindow _ => []
  | _ => events

def windowEvents (ops : List HeapOp) : List HeapEvent := ops.foldl windowStep []

def allocObjects (events : List HeapEvent) (s : Stack) : ℕ :=
  ((events.filter (·.stack = s)).map (·.weight.toNat)).sum

def allocSpace (events : List HeapEvent) (s : Stack) : ℕ :=
  ((events.filter (·.stack = s)).map fun event => event.size.toNat * event.weight.toNat).sum

noncomputable def droppedSum (values : Table Stack HeapValues) (f : Stack → ℕ) : ℕ :=
  ∑ᶠ s, if s ∉ values then f s else 0

/-! ## Allocations as a feed -/

def HeapValues.addAlloc (event : HeapEvent) (values : HeapValues) : HeapValues :=
  { values with
    allocObjects := saturatingAddI64 values.allocObjects (saturatingI64 event.weight.toNat)
    allocSpace := saturatingAddI64 values.allocSpace (saturatingI64 event.weightedSpace.toNat) }

def HeapAggregationDrops.addAlloc (drops : HeapAggregationDrops) (event : HeapEvent) : HeapAggregationDrops :=
  { drops with
    allocObjects := saturatingAddI64 drops.allocObjects (saturatingI64 event.weight.toNat)
    allocSpace := saturatingAddI64 drops.allocSpace (saturatingI64 event.weightedSpace.toNat) }

theorem zero_saturatingAddI64 (n : ℕ) : saturatingAddI64 0 (saturatingI64 n) = saturatingI64 n := by
  have := saturatingAddI64_add 0 n
  rwa [saturatingI64_zero, Nat.zero_add] at this

theorem addAlloc_default (event : HeapEvent) : HeapValues.addAlloc event {} =
    { allocObjects := saturatingI64 event.weight.toNat, allocSpace := saturatingI64 event.weightedSpace.toNat } := by
  simp only [HeapValues.addAlloc, zero_saturatingAddI64]

abbrev allocFeed (maxStacks : ℕ) (events : List HeapEvent) : Table Stack HeapValues × List HeapEvent :=
  Capped.feed maxStacks {} HeapEvent.stack HeapValues.addAlloc ∅ events

structure WindowOf (st : HeapState) (events : List HeapEvent) : Prop where
  allocations : st.windowAllocations = (allocFeed st.maxStacks events).1
  drops : st.aggregationDrops = (allocFeed st.maxStacks events).2.foldl HeapAggregationDrops.addAlloc {}

theorem recordWindowAllocation_windowOf {self : HeapState} {events : List HeapEvent} (h : WindowOf self events)
    (event : HeapEvent) :
    WindowOf (self.recordWindowAllocation event.stack (saturatingI64 event.weight.toNat)
      (saturatingI64 event.weightedSpace.toNat)) (events ++ [event]) := by
  obtain ⟨ha, hd⟩ := h
  unfold HeapState.recordWindowAllocation
  cases hl : self.windowAllocations.lookup event.stack with
  | some values =>
    rw [ha] at hl
    refine ⟨?_, ?_⟩ <;> simp only [allocFeed, Capped.feed_snoc, Capped.offer, hl]
    · rw [ha]; rfl
    · exact hd
  | none =>
    rw [ha] at hl
    by_cases hs : self.windowAllocations.size < self.maxStacks
    · simp only [hs, ite_true]
      rw [ha] at hs
      refine ⟨?_, ?_⟩ <;> simp only [allocFeed, Capped.feed_snoc, Capped.offer, hl, hs, ite_true]
      · rw [ha, addAlloc_default]
      · exact hd
    · simp only [hs, ite_false]
      rw [ha] at hs
      refine ⟨?_, ?_⟩ <;> simp only [allocFeed, Capped.feed_snoc, Capped.offer, hl, hs, ite_false]
      · exact ha
      · rw [List.foldl_append, ← hd]; rfl

theorem windowOf_congr {self self' : HeapState} {events : List HeapEvent} (h : WindowOf self events)
    (hw : self'.windowAllocations = self.windowAllocations ∧ self'.aggregationDrops = self.aggregationDrops ∧
      self'.maxStacks = self.maxStacks) : WindowOf self' events :=
  ⟨by rw [hw.1, hw.2.2]; exact h.allocations, by rw [hw.2.1, hw.2.2]; exact h.drops⟩

theorem apply_windowOf {self : HeapState} {events : List HeapEvent} (h : WindowOf self events) (event : HeapEvent) :
    WindowOf (self.apply event) (windowStep events (.apply event)) := by
  cases hk : event.kind with
  | alloc =>
    simp only [HeapState.apply, windowStep, hk, true_and]
    unfold HeapState.allocate
    by_cases hv : event.valid = true
    · simp only [hv, ite_true, internStack_eq]
      exact windowOf_congr (recordWindowAllocation_windowOf h event) (insertLive_window _ _ _)
    · simp only [hv]
      exact h
  | free =>
    simp only [HeapState.apply, windowStep, hk, reduceCtorEq, false_and, ite_false]
    split
    · exact windowOf_congr h (removeLiveTotals_window _ _)
    · exact h

theorem perform_windowOf {self : HeapState} {events : List HeapEvent} (h : WindowOf self events) (op : HeapOp) :
    WindowOf (self.perform op) (windowStep events op) := by
  cases op with
  | apply event => exact apply_windowOf h event
  | snapshotWindow iter => exact ⟨rfl, rfl⟩
  | clearLive => exact windowOf_congr h ⟨rfl, rfl, rfl⟩
  | retainLivePointers pointers iter => exact windowOf_congr h ⟨rfl, rfl, rfl⟩

theorem performAll_windowOf {self : HeapState} {events : List HeapEvent} (h : WindowOf self events)
    (ops : List HeapOp) : WindowOf (self.performAll ops) (ops.foldl windowStep events) := by
  induction ops generalizing self events with
  | nil => exact h
  | cons op ops ih => exact ih (perform_windowOf h op)

/-! ## The snapshot as a feed -/

def HeapValues.setInuse (entry : Σ _ : Stack, LiveTotals) (values : HeapValues) : HeapValues :=
  { values with inuseObjects := saturatingI64 entry.2.objects, inuseSpace := saturatingI64 entry.2.space }

def HeapAggregationDrops.addInuse (drops : HeapAggregationDrops) (entry : Σ _ : Stack, LiveTotals) :
    HeapAggregationDrops :=
  { drops with
    inuseObjects := saturatingAddI64 drops.inuseObjects (saturatingI64 entry.2.objects)
    inuseSpace := saturatingAddI64 drops.inuseSpace (saturatingI64 entry.2.space) }

abbrev inuseFeed (self : HeapState) (iter : IterOrder) : Table Stack HeapValues × List (Σ _ : Stack, LiveTotals) :=
  Capped.feed self.maxStacks {} Sigma.fst HeapValues.setInuse self.windowAllocations
    (iter.order self.liveTotals.entries)

theorem snapshot_eq_feed (self : HeapState) (iter : IterOrder) :
    (self.snapshotWindowWithDrops iter).1 = ((inuseFeed self iter).1,
      (inuseFeed self iter).2.foldl HeapAggregationDrops.addInuse self.aggregationDrops) := by
  refine Capped.foldl_feed _ _ _ _ HeapAggregationDrops.addInuse (fun values drops entry => ?_) _ _ _
  unfold HeapState.recordInuse Capped.offer
  dsimp only
  cases values.lookup entry.1 with
  | some v => rfl
  | none => by_cases hs : values.size < self.maxStacks <;> simp only [hs, ite_true, ite_false] <;> rfl

/-! ## What the feeds leave -/

/-- Saturating each product at `u64::MAX` does not change what fits an `i64`. -/
theorem saturatingI64_weightedSpace (events : List HeapEvent) :
    saturatingI64 (events.map (·.weightedSpace.toNat)).sum =
      saturatingI64 (events.map fun event => event.size.toNat * event.weight.toNat).sum := by
  have hmin : ∀ a : ℕ, min (min a u64Max) i64Max = min a i64Max := fun a => by
    rw [min_assoc, min_eq_right (show i64Max ≤ u64Max by decide)]
  have hclamp : ∀ f : HeapEvent → ℕ, saturatingI64 (events.map f).sum =
      saturatingI64 (events.map fun event => Sat.clamp i64Max (f event)).sum := fun f => by
    rw [saturatingI64_eq, saturatingI64_eq]
    exact congrArg _ (Sat.clamp_sum_map_clamp i64Max events f).symm
  rw [hclamp, hclamp (fun event => event.size.toNat * event.weight.toNat)]
  simp only [Sat.clamp, HeapEvent.weightedSpace, toNat_saturatingMulU64, hmin]

theorem foldl_addAlloc_values (events : List HeapEvent) :
    events.foldl (fun values event => HeapValues.addAlloc event values) {} =
      { allocObjects := saturatingI64 (events.map (·.weight.toNat)).sum
        allocSpace := saturatingI64 (events.map fun event => event.size.toNat * event.weight.toNat).sum } := by
  refine HeapValues.ext ?_ ?_ (foldl_frame HeapValues.inuseObjects (by intros; rfl) _ _)
    (foldl_frame HeapValues.inuseSpace (by intros; rfl) _ _)
  · rw [foldl_counter HeapValues.allocObjects (·.weight.toNat) (by intros; rfl) (a := 0) rfl, Nat.zero_add]
  · rw [foldl_counter HeapValues.allocSpace (·.weightedSpace.toNat) (by intros; rfl) (a := 0) rfl, Nat.zero_add,
      saturatingI64_weightedSpace]

theorem foldl_addAlloc_drops (events : List HeapEvent) :
    events.foldl HeapAggregationDrops.addAlloc {} =
      { allocObjects := saturatingI64 (events.map (·.weight.toNat)).sum
        allocSpace := saturatingI64 (events.map fun event => event.size.toNat * event.weight.toNat).sum } := by
  refine HeapAggregationDrops.ext ?_ ?_ (foldl_frame HeapAggregationDrops.inuseObjects (by intros; rfl) _ _)
    (foldl_frame HeapAggregationDrops.inuseSpace (by intros; rfl) _ _)
  · rw [foldl_counter HeapAggregationDrops.allocObjects (·.weight.toNat) (by intros; rfl) (a := 0) rfl, Nat.zero_add]
  · rw [foldl_counter HeapAggregationDrops.allocSpace (·.weightedSpace.toNat) (by intros; rfl) (a := 0) rfl,
      Nat.zero_add, saturatingI64_weightedSpace]

theorem foldl_addInuse_drops (entries : List (Σ _ : Stack, LiveTotals)) {drops : HeapAggregationDrops}
    (ho : drops.inuseObjects = 0) (hp : drops.inuseSpace = 0) :
    entries.foldl HeapAggregationDrops.addInuse drops =
      { drops with
        inuseObjects := saturatingI64 (entries.map (·.2.objects)).sum
        inuseSpace := saturatingI64 (entries.map (·.2.space)).sum } := by
  refine HeapAggregationDrops.ext (foldl_frame HeapAggregationDrops.allocObjects (by intros; rfl) _ _)
    (foldl_frame HeapAggregationDrops.allocSpace (by intros; rfl) _ _) ?_ ?_
  · rw [foldl_counter HeapAggregationDrops.inuseObjects (·.2.objects) (by intros; rfl) (a := 0) ho, Nat.zero_add]
  · rw [foldl_counter HeapAggregationDrops.inuseSpace (·.2.space) (by intros; rfl) (a := 0) hp, Nat.zero_add]

section
variable {self : HeapState} {events : List HeapEvent} (h : WindowOf self events) (iter : IterOrder)

theorem fed_alloc (self : HeapState) (events : List HeapEvent) :
    Capped.Fed self.maxStacks {} HeapEvent.stack HeapValues.addAlloc ∅ events (allocFeed self.maxStacks events) :=
  Capped.feed_spec _ _ _ _ _ _

theorem fed_inuse (self : HeapState) (iter : IterOrder) :
    Capped.Fed self.maxStacks {} Sigma.fst HeapValues.setInuse self.windowAllocations
      (iter.order self.liveTotals.entries) (inuseFeed self iter) :=
  Capped.feed_spec _ _ _ _ _ _

include h

theorem window_size_le : self.windowAllocations.size ≤ self.maxStacks := by
  rw [h.allocations]
  exact (fed_alloc self events).size_le (Nat.zero_le _)

theorem window_value {s : Stack} {v : HeapValues} (hv : self.windowAllocations.lookup s = some v) :
    v =
      { allocObjects := saturatingI64 (allocObjects events s)
        allocSpace := saturatingI64 (allocSpace events s) } := by
  rw [h.allocations] at hv
  have hval := (fed_alloc self events).value s v hv
  rwa [AList.lookup_empty, Option.getD_none, foldl_addAlloc_values] at hval

/-- A stack that only the snapshot adds has had no allocation in the window. -/
theorem not_dropped {s : Stack} (hw : s ∉ self.windowAllocations) (hs : s ∈ (inuseFeed self iter).1) :
    ∀ event ∈ events, event.stack ≠ s := by
  have hroom : self.windowAllocations.size < self.maxStacks := by
    rcases ((fed_inuse self iter).mem s).mp hs with hm | hm
    · exact absurd hm hw
    · rcases Nat.eq_zero_or_pos (self.maxStacks - self.windowAllocations.size) with h0 | h0
      · rw [h0, List.take_zero] at hm; cases hm
      · omega
  rw [h.allocations] at hw hroom
  exact ((fed_alloc self events).fresh hw hroom).2.2.2

theorem snapshot_value {s : Stack} {v : HeapValues} (hv : (inuseFeed self iter).1.lookup s = some v) :
    v = { allocObjects := saturatingI64 (allocObjects events s), allocSpace := saturatingI64 (allocSpace events s)
          inuseObjects := saturatingI64 (totalsOf self.liveTotals s).objects
          inuseSpace := saturatingI64 (totalsOf self.liveTotals s).space } := by
  have hval := (fed_inuse self iter).value s v hv
  rw [Table.filter_order] at hval
  have hinit : (self.windowAllocations.lookup s).getD {} =
      { allocObjects := saturatingI64 (allocObjects events s), allocSpace := saturatingI64 (allocSpace events s) } := by
    cases hw : self.windowAllocations.lookup s with
    | some w => exact window_value h hw
    | none =>
      have hnone := not_dropped h iter (Table.notMem_iff.mpr hw) (Table.mem_of_lookup hv)
      have he : events.filter (·.stack = s) = [] := List.filter_eq_nil_iff.mpr fun e he => by simp [hnone e he]
      simp [allocObjects, allocSpace, he]
  rw [hinit] at hval
  rw [hval, totalsOf]
  cases self.liveTotals.lookup s with
  | none => rfl
  | some t => rfl

theorem snapshot_drops : (self.snapshotWindowWithDrops iter).1.2 =
    { allocObjects := saturatingI64 (droppedSum (inuseFeed self iter).1 (allocObjects events))
      allocSpace := saturatingI64 (droppedSum (inuseFeed self iter).1 (allocSpace events))
      inuseObjects := saturatingI64 (droppedSum (inuseFeed self iter).1 fun s => (totalsOf self.liveTotals s).objects)
      inuseSpace :=
        saturatingI64 (droppedSum (inuseFeed self iter).1 fun s => (totalsOf self.liveTotals s).space) } := by
  rw [snapshot_eq_feed, h.drops, (fed_alloc self events).dropped, (fed_inuse self iter).dropped, ← h.allocations]
  -- A stack that was refused in the window is not let in by the snapshot either.
  have hsame : events.filter (fun e => decide (e.stack ∉ self.windowAllocations)) =
      events.filter fun e => decide (e.stack ∉ (inuseFeed self iter).1) := List.filter_congr fun e he => by
    by_cases hw : e.stack ∈ self.windowAllocations
    · simp [hw, (fed_inuse self iter).mem_of_mem hw]
    · by_cases hs : e.stack ∈ (inuseFeed self iter).1
      · exact absurd rfl (not_dropped h iter hw hs e he)
      · simp [hw, hs]
  rw [hsame]
  generalize (inuseFeed self iter).1 = values
  have hdropped : ∀ w : HeapEvent → ℕ,
      ((events.filter fun e => decide (e.stack ∉ values)).map w).sum =
        droppedSum values fun s => ((events.filter (·.stack = s)).map w).sum := fun w =>
    Capped.sum_by_key HeapEvent.stack w (· ∉ values) events
  have hinuse : ∀ w : LiveTotals → ℕ, w 0 = 0 →
      (((iter.order self.liveTotals.entries).filter fun e => decide (e.1 ∉ values)).map fun e => w e.2).sum =
        droppedSum values fun s => w (totalsOf self.liveTotals s) := fun w hw => by
    rw [Capped.sum_by_key Sigma.fst (fun e : Σ _ : Stack, LiveTotals => w e.2) (· ∉ values)]
    unfold droppedSum totalsOf
    refine finsum_congr fun s => ?_
    rw [Table.filter_order]
    cases hl : self.liveTotals.lookup s <;> simp [hl, hw]
  rw [foldl_addAlloc_drops, foldl_addInuse_drops _ rfl rfl, hdropped, hdropped, hinuse LiveTotals.objects rfl,
    hinuse LiveTotals.space rfl]
  rfl

end

/-! ## Refused stacks -/

/-- An allocation of stack `s` is dropped at the cap. -/
def HeapState.Refuses (st : HeapState) (s : Stack) : Prop :=
  s ∉ st.windowAllocations ∧ ¬ st.windowAllocations.size < st.maxStacks

theorem recordWindowAllocation_refuses {self : HeapState} {s : Stack} (h : self.Refuses s) (stack : Stack) (o p : ℤ) :
    (self.recordWindowAllocation stack o p).Refuses s := by
  unfold HeapState.recordWindowAllocation
  cases hl : self.windowAllocations.lookup stack with
  | some values =>
    have hm := Table.mem_of_lookup hl
    refine ⟨?_, ?_⟩
    · simp only [AList.mem_insert, not_or]
      exact ⟨fun e => h.1 (e ▸ hm), h.1⟩
    · simp only [Table.size_insert_of_mem hm]
      exact h.2
  | none =>
    simp only [h.2, ite_false]
    exact h

theorem perform_refuses {self : HeapState} {s : Stack} (h : self.Refuses s) {op : HeapOp}
    (hop : ∀ iter, op ≠ .snapshotWindow iter) : (self.perform op).Refuses s := by
  have hframe : ∀ {st st' : HeapState}, st.Refuses s → (st'.windowAllocations = st.windowAllocations ∧
      st'.aggregationDrops = st.aggregationDrops ∧ st'.maxStacks = st.maxStacks) → st'.Refuses s := fun h hw => by
    unfold HeapState.Refuses
    rw [hw.1, hw.2.2]
    exact h
  cases op with
  | snapshotWindow iter => exact absurd rfl (hop iter)
  | clearLive => exact h
  | retainLivePointers pointers iter => exact h
  | apply event =>
    simp only [HeapState.perform, HeapState.apply]
    split
    · unfold HeapState.allocate
      split
      · exact hframe (recordWindowAllocation_refuses h _ _ _) (insertLive_window _ _ _)
      · exact h
    · split
      · exact hframe h (removeLiveTotals_window _ _)
      · exact h

theorem performAll_refuses {s : Stack} : ∀ (ops : List HeapOp) {self : HeapState}, self.Refuses s →
    (∀ op ∈ ops, ∀ iter, op ≠ .snapshotWindow iter) → (self.performAll ops).Refuses s
  | [], _, h, _ => h
  | op :: ops, _, h, hops =>
    performAll_refuses ops (perform_refuses h (hops op (by simp))) fun o ho => hops o (by simp [ho])

theorem perform_maxStacks (self : HeapState) (op : HeapOp) : (self.perform op).maxStacks = self.maxStacks := by
  cases op with
  | apply event =>
    simp only [HeapState.perform, HeapState.apply]
    split
    · unfold HeapState.allocate
      split
      · exact (insertLive_window _ _ _).2.2.trans (recordWindowAllocation_live _ _ _ _).2.2
      · rfl
    · split
      · exact (removeLiveTotals_window _ _).2.2
      · rfl
  | _ => rfl

theorem performAll_maxStacks (ops : List HeapOp) (self : HeapState) :
    (self.performAll ops).maxStacks = self.maxStacks :=
  foldl_frame HeapState.maxStacks perform_maxStacks ops self

/-! ## Conservation -/

/-- **A heap window conserves everything.** The snapshot has at most `maxStacks`
stacks, each with the exact sums of its window and its live totals; the drop
counters hold the sums of all other stacks; a stack refused at the cap is not
reported; and the next window starts empty with the live totals untouched. -/
theorem snapshotWindow_conserves (maxStacks : ℕ) (ops : List HeapOp) (iter : IterOrder) :
    let self := (HeapState.withMaxStacks maxStacks).performAll ops
    let values := (self.snapshotWindowWithDrops iter).1.1
    let drops := (self.snapshotWindowWithDrops iter).1.2
    let next := (self.snapshotWindowWithDrops iter).2
    let objects := allocObjects (windowEvents ops)
    let space := allocSpace (windowEvents ops)
    let live := totalsOf self.liveTotals
    values.size ≤ maxStacks ∧
    (∀ s v, values.lookup s = some v → v =
      { allocObjects := saturatingI64 (objects s), allocSpace := saturatingI64 (space s)
        inuseObjects := saturatingI64 (live s).objects, inuseSpace := saturatingI64 (live s).space }) ∧
    drops =
      { allocObjects := saturatingI64 (droppedSum values objects)
        allocSpace := saturatingI64 (droppedSum values space)
        inuseObjects := saturatingI64 (droppedSum values fun s => (live s).objects)
        inuseSpace := saturatingI64 (droppedSum values fun s => (live s).space) } ∧
    (∀ pre event post, ops = pre ++ .apply event :: post → (∀ op ∈ post, ∀ iter, op ≠ .snapshotWindow iter) →
      ((HeapState.withMaxStacks maxStacks).performAll pre).Refuses event.stack → event.stack ∉ values) ∧
    next.windowAllocations = ∅ ∧ next.aggregationDrops = {} ∧ next.liveTotals = self.liveTotals ∧
      next.live = self.live := by
  intro self values drops next objects space live
  have h : WindowOf self (windowEvents ops) := performAll_windowOf ⟨rfl, rfl⟩ ops
  have hmax : self.maxStacks = maxStacks := performAll_maxStacks ops _
  have hvalues : values = (inuseFeed self iter).1 := by
    simp only [values, snapshot_eq_feed]
  refine ⟨?_, fun s v hv => ?_, ?_, fun pre event post hops hpost href => ?_, rfl, rfl, rfl, rfl⟩
  · rw [hvalues, ← hmax]
    exact (fed_inuse self iter).size_le (window_size_le h)
  · rw [hvalues] at hv
    exact snapshot_value h iter hv
  · rw [hvalues]
    exact snapshot_drops h iter
  · have hs : self.Refuses event.stack := by
      simp only [self, hops, HeapState.performAll, List.foldl_append, List.foldl_cons]
      exact performAll_refuses post (perform_refuses href fun _ => HeapOp.noConfusion) hpost
    rw [hvalues, (fed_inuse self iter).mem_iff_of_full (Nat.not_lt.mp hs.2)]
    exact hs.1

end RustProfile
