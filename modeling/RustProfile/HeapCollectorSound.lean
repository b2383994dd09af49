import RustProfile.HeapCollector
import RustProfile.Lib.Run

/-!
# Reconciling the live set

The collector may hold a pointer that the kernel no longer tracks only while the
pointer's `FREE` event is under way or a loss has been counted since the last
snapshot. The counters cover the ring and the map, not the channel between the
ring and the state, so this needs that no `FREE` event is refused there.
-/

namespace RustProfile

/-! ## Events under way -/

def heldAfter (p : UInt64) (held : Prop) (event : RawEvent) : Prop :=
  match event.header.kind with
  | .stack => held
  | .alloc => held ∨ p = event.header.pointer
  | .free => held ∧ p ≠ event.header.pointer

def MayHold (p : UInt64) (held : Prop) (events : List RawEvent) : Prop := events.foldl (heldAfter p) held

theorem heldAfter_mono {p : UInt64} {a b : Prop} (h : a → b) (event : RawEvent) :
    heldAfter p a event → heldAfter p b event := by
  unfold heldAfter
  split
  · exact h
  · exact Or.imp_left h
  · exact And.imp_left h

theorem mayHold_mono {p : UInt64} : ∀ (events : List RawEvent) {a b : Prop}, (a → b) →
    MayHold p a events → MayHold p b events
  | [], _, _, h => h
  | event :: events, _, _, h => mayHold_mono events (heldAfter_mono h event)

theorem mayHold_snoc (p : UInt64) (held : Prop) (events : List RawEvent) (event : RawEvent) :
    MayHold p held (events ++ [event]) = heldAfter p (MayHold p held events) event := by
  unfold MayHold
  rw [List.foldl_append]
  rfl

theorem mayHold_append (p : UInt64) (held : Prop) (as bs : List RawEvent) :
    MayHold p held (as ++ bs) = MayHold p (MayHold p held as) bs := List.foldl_append ..

/-- Only a `FREE` event makes a pointer held no longer. -/
theorem mayHold_of_held {p : UInt64} : ∀ {events : List RawEvent} {held : Prop},
    (∀ e ∈ events, e.header.kind ≠ .free) → held → MayHold p held events
  | [], _, _, hh => hh
  | e :: events, held, hf, hh => by
    refine @mayHold_of_held p _ (heldAfter p held e) (fun e' he' => hf e' (List.mem_cons_of_mem _ he')) ?_
    unfold heldAfter
    cases hk : e.header.kind with
    | stack => exact hh
    | alloc => exact Or.inl hh
    | free => exact absurd hk (hf e List.mem_cons_self)

/-! ## The kernel side -/

def Lossy (base stats : KernelStats) : Prop :=
  base .mapEvictions < stats .mapEvictions ∨ base .ringbufDrops < stats .ringbufDrops

theorem Lossy.mono {base s t : KernelStats} (h : ∀ i, s i ≤ t i) (hl : Lossy base s) : Lossy base t :=
  hl.imp (Nat.lt_of_lt_of_le · (h _)) (Nat.lt_of_lt_of_le · (h _))

/-- The kernel tracks every pointer its events may leave held, unless a loss is counted. -/
structure Tracked (base : KernelStats) (held : UInt64 → Prop) (kernel : HeapBpf) : Prop where
  mono : ∀ i, base i ≤ kernel.stats i
  tracked : Lossy base kernel.stats ∨ ∀ p, MayHold p (held p) kernel.events → p ∈ kernel.liveSamples

section
variable {base : KernelStats} {held : UInt64 → Prop} {kernel kernel' : HeapBpf}

theorem Tracked.frame (h : Tracked base held kernel) (hs : ∀ i, kernel.stats i ≤ kernel'.stats i)
    (he : kernel'.events = kernel.events) (hl : kernel'.liveSamples = kernel.liveSamples) :
    Tracked base held kernel' :=
  ⟨fun i => Nat.le_trans (h.mono i) (hs i), h.tracked.imp (Lossy.mono hs) fun ht => by rw [he, hl]; exact ht⟩

theorem Tracked.incrementStat (h : Tracked base held kernel) (i : StatIndex) :
    Tracked base held (kernel.incrementStat i) :=
  h.frame (le_incrementStat kernel i) rfl rfl

theorem Tracked.lossy (h : Tracked base held kernel) {i : StatIndex} (hi : i = .ringbufDrops ∨ i = .mapEvictions)
    (hs : kernel'.stats = (kernel.incrementStat i).stats) : Tracked base held kernel' := by
  refine ⟨fun j => hs ▸ Nat.le_trans (h.mono j) (le_incrementStat kernel i j), Or.inl ?_⟩
  have hlt : base i < (kernel.incrementStat i).stats i := by
    rw [incrementStat_stats, if_pos rfl]
    exact Nat.lt_succ_of_le (h.mono i)
  rw [hs]
  rcases hi with rfl | rfl
  · exact Or.inr hlt
  · exact Or.inl hlt

theorem Tracked.push (h : Tracked base held kernel) {event : RawEvent}
    (hp : ∀ p held, heldAfter p held event → held ∨ p ∈ kernel.liveSamples) :
    Tracked base held { kernel with events := kernel.events ++ [event] } := by
  refine ⟨h.mono, h.tracked.imp id fun ht p hm => ?_⟩
  dsimp only at hm ⊢
  rw [mayHold_snoc] at hm
  exact (hp p _ hm).elim (ht p) id

theorem emitStack_tracked (h : Tracked base held kernel) (config : BpfConfig) (hit : ProbeHit) (token : ℕ)
    (size weight : UInt64) : Tracked base held (kernel.emitStack config hit token size weight) := by
  unfold HeapBpf.emitStack
  dsimp only
  split
  · split
    · exact h.push fun _ _ => Or.inl
    · exact (h.incrementStat .stackFailures).push fun _ _ => Or.inl
  · exact h.incrementStat .ringbufDrops

theorem storePending_tracked (h : Tracked base held kernel) (config : BpfConfig) (hit : ProbeHit)
    (value : PendingAllocation) : Tracked base held (kernel.storePending config hit value) := by
  unfold HeapBpf.storePending
  extract_lets k
  have hk : Tracked base held k := by
    simp only [k]
    split
    · refine emitStack_tracked ?_ config hit value.token value.size value.weight
      exact h.frame (fun _ => Nat.le_refl _) rfl rfl
    · exact h
  split
  · exact hk.incrementStat _
  · exact hk.frame (fun _ => Nat.le_refl _) rfl rfl

theorem beginAllocation_tracked (h : Tracked base held kernel) (config : BpfConfig) (hit : ProbeHit)
    (size oldPtr outputPtr : UInt64) (operation : Operation) :
    Tracked base held (kernel.beginAllocation config hit size oldPtr outputPtr operation) := by
  have hc : Tracked base held (kernel.countCall hit) := by
    unfold HeapBpf.countCall
    dsimp only
    split
    · exact (h.incrementStat _).incrementStat _
    · exact h.incrementStat _
  unfold HeapBpf.beginAllocation
  split
  · exact hc
  · exact storePending_tracked hc ..

theorem releaseSample_tracked (h : Tracked base held kernel) (config : BpfConfig) (hit : ProbeHit) (ptr : UInt64) :
    Tracked base held (kernel.releaseSample config hit ptr) := by
  unfold HeapBpf.releaseSample
  split
  · rename_i token _
    unfold HeapBpf.emitControl
    dsimp only
    split
    · refine ⟨fun i => Nat.le_trans (h.mono i) (le_incrementStat kernel .sampledFrees i), ?_⟩
      refine h.tracked.imp (Lossy.mono (le_incrementStat kernel .sampledFrees)) fun ht p hm => ?_
      simp only [incrementStat_frame] at hm ⊢
      rw [mayHold_snoc] at hm
      exact AList.mem_erase.mpr ⟨hm.2, ht p hm.1⟩
    · exact (h.incrementStat .sampledFrees).lossy (Or.inl rfl) (by
        unfold HeapBpf.incrementStat
        exact Function.update_comm (by decide) ..)
  · exact h

theorem emitControl_stats (config : BpfConfig) (hit : ProbeHit) (kind : EventKind) (token : ℕ)
    (ptr size weight : UInt64)
    (i : StatIndex) : kernel.stats i ≤ (kernel.emitControl config hit kind token ptr size weight).stats i := by
  unfold HeapBpf.emitControl
  dsimp only
  split
  · exact Nat.le_refl _
  · exact le_incrementStat ..

theorem releaseSample_stats (config : BpfConfig) (hit : ProbeHit) (ptr : UInt64) (i : StatIndex) :
    kernel.stats i ≤ (kernel.releaseSample config hit ptr).stats i := by
  unfold HeapBpf.releaseSample
  split
  · exact Nat.le_trans (emitControl_stats ..) (le_incrementStat ..)
  · exact Nat.le_refl _

theorem countLive_stats (k : HeapBpf) (i : StatIndex) : k.stats i ≤ k.countLive.stats i := by
  unfold HeapBpf.countLive
  split
  · exact le_incrementStat ..
  · exact Nat.le_refl _

theorem recordSample_stats (config : BpfConfig) (hit : ProbeHit) (value : PendingAllocation) (ptr : UInt64)
    (i : StatIndex) : kernel.stats i ≤ (kernel.recordSample config hit value ptr).stats i := by
  unfold HeapBpf.recordSample
  extract_lets live k
  split
  · exact le_incrementStat ..
  · have hk : kernel.stats i ≤ k.stats i := countLive_stats { kernel with liveSamples := live } i
    exact Nat.le_trans hk (Nat.le_trans (emitControl_stats ..) (le_incrementStat ..))

theorem finishAllocation_stats (config : BpfConfig) (hit : ProbeHit) (posix : Bool) (i : StatIndex) :
    kernel.stats i ≤ (kernel.finishAllocation config hit posix).stats i := by
  have hrel : ∀ (k : HeapBpf) value ptr, k.stats i ≤ (k.releaseOld config hit value ptr).stats i :=
      fun k value ptr => by
    unfold HeapBpf.releaseOld
    split
    · exact releaseSample_stats ..
    · exact Nat.le_refl _
  have hrec : ∀ (k : HeapBpf) value ptr, k.stats i ≤ (k.recordNew config hit value ptr).stats i := fun k value ptr => by
    unfold HeapBpf.recordNew
    split
    · exact recordSample_stats ..
    · exact Nat.le_refl _
  unfold HeapBpf.finishAllocation
  split
  · exact Nat.le_refl _
  · exact Nat.le_trans (hrel ..) (hrec ..)

theorem recordSample_tracked (h : Tracked base held kernel) (config : BpfConfig) {hit : ProbeHit}
    (he : hit.evicted = []) (value : PendingAllocation) (ptr : UInt64) :
    Tracked base held (kernel.recordSample config hit value ptr) := by
  unfold HeapBpf.recordSample
  extract_lets live k
  have hlive : ∀ p, p ∈ live ↔ p = ptr ∨ p ∈ kernel.liveSamples := fun p => by
    simp only [live, AList.mem_insert, Table.mem_retain, he]
    simp [Table.mem_iff]
  have hk : Tracked base held k := by
    obtain ⟨hev, hls, -⟩ := countLive_frame { kernel with liveSamples := live }
    have hst : ∀ i, kernel.stats i ≤ k.stats i := countLive_stats { kernel with liveSamples := live }
    refine ⟨fun i => Nat.le_trans (h.mono i) (hst i), ?_⟩
    refine h.tracked.imp (Lossy.mono hst) fun ht p hm => ?_
    rw [hev] at hm
    rw [hls]
    exact (hlive p).mpr (Or.inr (ht p hm))
  have hls : k.liveSamples = live := (countLive_frame _).2.1
  split
  · exact h.incrementStat _
  · refine Tracked.incrementStat ?_ _
    unfold HeapBpf.emitControl
    dsimp only
    split
    · refine hk.push fun p a hm => hm.imp id fun hp => ?_
      rw [hls]
      exact (hlive p).mpr (Or.inl hp)
    · exact hk.incrementStat _

theorem finishAllocation_tracked (h : Tracked base held kernel) (config : BpfConfig) {hit : ProbeHit}
    (he : hit.evicted = []) (posix : Bool) : Tracked base held (kernel.finishAllocation config hit posix) := by
  unfold HeapBpf.finishAllocation
  split
  · exact h
  · rename_i value _
    extract_lets ptr k
    have h₁ : Tracked base held (kernel.releaseOld config hit value ptr) := by
      unfold HeapBpf.releaseOld
      split
      · exact releaseSample_tracked h ..
      · exact h
    have h₂ : Tracked base held k := by
      simp only [k, HeapBpf.recordNew]
      split
      · exact recordSample_tracked h₁ config he ..
      · exact h₁
    exact h₂.frame (fun _ => Nat.le_refl _) rfl rfl

theorem probe_tracked (h : Tracked base held kernel) {config : BpfConfig} {step : ProbeStep}
    (hs : kernel.probe config step = some kernel') : Tracked base held kernel' := by
  cases step with
  | enter fn hit =>
    simp only [HeapBpf.probe, Option.some.injEq, enter_eq] at hs
    subst hs
    exact beginAllocation_tracked h ..
  | free fn hit =>
    simp only [HeapBpf.probe, Option.some.injEq, freeEnter_eq] at hs
    subst hs
    unfold HeapBpf.freeAllocation
    split
    · exact h
    · exact releaseSample_tracked h ..
  | exit fn hit =>
    simp only [HeapBpf.probe, exit_eq] at hs
    split at hs
    · rename_i hev
      simp only [Option.some.injEq] at hs
      subst hs
      rcases hev with he | hlt
      · exact finishAllocation_tracked h config he _
      · exact ⟨fun i => Nat.le_trans (h.mono i) (finishAllocation_stats ..),
          Or.inl (Or.inl (Nat.lt_of_le_of_lt (h.mono _) hlt))⟩
    · cases hs

end

/-! ## The user side -/

section
variable {δ : Type} (unwinder : UnwindBytes δ)

structure StackOnly (a b : HeapCollector δ) : Prop where
  state : b.state = a.state
  receiver : b.receiver = a.receiver
  previousStats : b.previousStats = a.previousStats
  unwinder : a.dwarf = none → b.dwarf = none ∧ b.fatalUnwindError = a.fatalUnwindError

theorem StackOnly.trans {a b c : HeapCollector δ} (h : StackOnly a b) (h' : StackOnly b c) : StackOnly a c :=
  ⟨h'.state.trans h.state, h'.receiver.trans h.receiver, h'.previousStats.trans h.previousStats,
    fun ha => ⟨(h'.unwinder (h.unwinder ha).1).1, (h'.unwinder (h.unwinder ha).1).2.trans (h.unwinder ha).2⟩⟩

theorem storeStack_stackOnly (self : HeapCollector δ) (token : ℕ) (frames : List UInt64) :
    StackOnly self (self.storeStack token frames) := by
  unfold HeapCollector.storeStack HeapCollector.limitPendingStacks
  dsimp only
  split
  · exact ⟨rfl, rfl, rfl, fun h => ⟨h, rfl⟩⟩
  · split <;> exact ⟨rfl, rfl, rfl, fun h => ⟨h, rfl⟩⟩

theorem stackFrames_stackOnly (self : HeapCollector δ) (event : RawEvent) :
    StackOnly self (self.stackFrames unwinder event).2 := by
  obtain ⟨frames, dwarf, fatal, hnone, heq⟩ := self.stackFrames_spec unwinder event
  have hself : self.stackFrames unwinder event = _ := heq self.localStackSamples
  rw [hself]
  exact ⟨rfl, rfl, rfl, hnone⟩

theorem applyStack_stackOnly (self : HeapCollector δ) (event : RawEvent) :
    StackOnly self (self.applyStack unwinder event) := by
  have h₁ : StackOnly self { self with localStackSamples := self.localStackSamples + 1 } :=
    ⟨rfl, rfl, rfl, fun h => ⟨h, rfl⟩⟩
  have h₂ := stackFrames_stackOnly unwinder { self with localStackSamples := self.localStackSamples + 1 } event
  exact h₁.trans (h₂.trans (storeStack_stackOnly _ _ _))

theorem applyRawEvent_frame (self : HeapCollector δ) (event : RawEvent) :
    (self.applyRawEvent unwinder event).receiver = self.receiver ∧
      (self.applyRawEvent unwinder event).previousStats = self.previousStats := by
  unfold HeapCollector.applyRawEvent
  dsimp only
  split
  · exact ⟨(applyStack_stackOnly unwinder self event).receiver,
      (applyStack_stackOnly unwinder self event).previousStats⟩
  · split <;> exact ⟨rfl, rfl⟩
  · exact ⟨rfl, rfl⟩

/-- The state holds at most what the event leaves held. -/
theorem applyRawEvent_held {self : HeapCollector δ} {event : RawEvent} {p : UInt64}
    (h : p ∈ (self.applyRawEvent unwinder event).state.live) : heldAfter p (p ∈ self.state.live) event := by
  unfold HeapCollector.applyRawEvent at h
  unfold heldAfter
  cases hk : event.header.kind with
  | stack =>
    simp only [hk, (applyStack_stackOnly unwinder self event).state] at h
    exact h
  | alloc =>
    simp only [hk] at h
    split at h
    · exact Or.inl h
    · exact mem_allocate_live _ h
  | free =>
    simp only [hk] at h
    exact mem_free_live _ rfl h

theorem applyAll_held (p : UInt64) : ∀ (events : List RawEvent) (self : HeapCollector δ),
    p ∈ (events.foldl (HeapCollector.applyRawEvent unwinder) self).state.live → MayHold p (p ∈ self.state.live) events
  | [], _, h => h
  | event :: events, self, h =>
    mayHold_mono events (applyRawEvent_held unwinder) (applyAll_held p events (self.applyRawEvent unwinder event) h)

theorem applyAll_frame (events : List RawEvent) (self : HeapCollector δ) :
    (events.foldl (HeapCollector.applyRawEvent unwinder) self).receiver = self.receiver ∧
      (events.foldl (HeapCollector.applyRawEvent unwinder) self).previousStats = self.previousStats := by
  induction events generalizing self with
  | nil => exact ⟨rfl, rfl⟩
  | cons event events ih =>
    obtain ⟨h₁, h₂⟩ := ih (self.applyRawEvent unwinder event)
    obtain ⟨g₁, g₂⟩ := applyRawEvent_frame unwinder self event
    exact ⟨h₁.trans g₁, h₂.trans g₂⟩

theorem receiveAll (events : List RawEvent) (self : HeapCollector δ) :
    (events.foldl HeapCollector.receive self).receiver =
        self.receiver ++ events.take (eventQueueCapacity - self.receiver.length) ∧
      StackOnly { self with receiver := [] } { events.foldl HeapCollector.receive self with receiver := [] } := by
  induction events generalizing self with
  | nil => exact ⟨by simp, rfl, rfl, rfl, fun h => ⟨h, rfl⟩⟩
  | cons event events ih =>
    rw [List.foldl_cons]
    obtain ⟨h₁, h₂⟩ := ih (self.receive event)
    rw [h₁]
    refine ⟨?_, StackOnly.trans ?_ h₂⟩ <;> clear h₁ h₂ <;> unfold HeapCollector.receive
    rotate_left
    · split <;> exact ⟨rfl, rfl, rfl, fun h => ⟨h, rfl⟩⟩
    split
    · rename_i hlt
      obtain ⟨n, hn⟩ := Nat.exists_eq_add_of_lt hlt
      rw [hn, List.length_append, List.length_singleton, Nat.add_assoc, Nat.add_sub_cancel_left, List.append_assoc,
        List.take_succ_cons, ← Nat.add_assoc, Nat.add_right_comm, Nat.add_sub_cancel_left]
      rfl
    · rename_i hge
      rw [Nat.sub_eq_zero_of_le (Nat.not_lt.mp hge), List.take_zero, List.take_zero]

theorem deliver_spec {self : HeapCollector δ} (hr : self.receiver = []) (kernel : HeapBpf) :
    (self.deliver unwinder kernel).receiver = [] ∧
      (self.deliver unwinder kernel).previousStats = self.previousStats ∧
      ∀ p, p ∈ (self.deliver unwinder kernel).state.live →
        MayHold p (p ∈ self.state.live) (kernel.events.take eventQueueCapacity) := by
  obtain ⟨h₁, h₂⟩ := receiveAll kernel.events self
  rw [hr, List.nil_append, List.length_nil, Nat.sub_zero] at h₁
  unfold HeapCollector.deliver
  extract_lets self₁
  obtain ⟨f₁, f₂⟩ := applyAll_frame unwinder self₁.receiver { self₁ with receiver := [] }
  refine ⟨f₁, f₂.trans h₂.previousStats, fun p hp => ?_⟩
  have := applyAll_held unwinder p self₁.receiver { self₁ with receiver := [] } hp
  rw [h₂.state, h₁] at this
  exact this

theorem drain_eq {self self' : HeapCollector δ} {kernel kernel' : HeapBpf}
    (h : self.drain unwinder kernel = .ok (self', kernel')) :
    self' = self.deliver unwinder kernel ∧ kernel' = { kernel with events := [] } := by
  unfold HeapCollector.drain at h
  dsimp only at h
  split at h
  · cases h
  · simp only [Except.ok.injEq, Prod.mk.injEq] at h
    exact ⟨h.1.symm, h.2.symm⟩

end

/-! ## The system -/

section
variable {δ : Type} {config : BpfConfig} {unwinder : UnwindBytes δ}

/-- No `FREE` event lies behind the ones that the channel takes, unless a ring
drop or an eviction makes the next snapshot reconcile anyway. -/
def FreesReceived (self : HeapSystem δ) : HeapStep → Prop
  | .drain | .snapshotWindow _ =>
    Lossy self.collector.previousStats self.kernel.stats ∨
      ∀ e ∈ self.kernel.events.drop eventQueueCapacity, e.header.kind ≠ .free
  | _ => True

structure SystemInv (sys : HeapSystem δ) : Prop where
  empty : sys.collector.receiver = []
  tracked : Tracked sys.collector.previousStats (· ∈ sys.collector.state.live) sys.kernel

theorem drain_inv {self : HeapSystem δ} (h : SystemInv self) (hf : FreesReceived self .drain)
    {collector : HeapCollector δ} {kernel : HeapBpf}
    (hd : self.collector.drain unwinder self.kernel = .ok (collector, kernel)) : SystemInv ⟨kernel, collector⟩ := by
  obtain ⟨rfl, rfl⟩ := drain_eq unwinder hd
  obtain ⟨hempty, hprev, hlive⟩ := deliver_spec unwinder h.empty self.kernel
  refine ⟨hempty, ?_⟩
  dsimp only
  rw [hprev]
  refine ⟨h.tracked.mono, ?_⟩
  rcases hf with hl | hf
  · exact Or.inl hl
  · refine h.tracked.tracked.imp id fun ht p hp => ht p ?_
    rw [← List.take_append_drop eventQueueCapacity self.kernel.events, mayHold_append]
    exact mayHold_of_held hf (hlive p hp)

/-- Once reconciled, the state holds only pointers that the kernel tracks. -/
theorem reconcile_tracked {self : HeapCollector δ} {kernel : HeapBpf} (iter : IterOrder) (he : kernel.events = [])
    (h : Tracked self.previousStats (· ∈ self.state.live) kernel) :
    ∀ p ∈ (self.reconcile kernel iter).state.live, p ∈ kernel.liveSamples := by
  intro p hp
  unfold HeapCollector.reconcile at hp
  dsimp only at hp
  split at hp
  · have := mem_retain_live _ hp
    simpa [HeapCollector.liveKernelPointers, AList.mem_keys] using this
  · rename_i hdelta
    have hno : ¬ Lossy self.previousStats kernel.stats := fun hl => hdelta (hl.imp
      (fun hlt => Nat.sub_ne_zero_of_lt hlt) fun hlt => Nat.sub_ne_zero_of_lt hlt)
    refine (h.tracked.resolve_left hno) p ?_
    rw [he]
    exact hp

theorem closeWindow_frame (self : HeapCollector δ) (kernel : HeapBpf) (iter : IterOrder) :
    (self.closeWindow kernel iter).2.state.live = (self.reconcile kernel iter).state.live ∧
      (self.closeWindow kernel iter).2.previousStats = kernel.stats ∧
      (self.closeWindow kernel iter).2.receiver = self.receiver := by
  refine ⟨rfl, rfl, ?_⟩
  change (self.reconcile kernel iter).receiver = self.receiver
  unfold HeapCollector.reconcile
  dsimp only
  split <;> rfl

theorem snapshotWindow_step {self t : HeapSystem δ} {iter : IterOrder}
    (hs : self.step config unwinder (.snapshotWindow iter) = some t) :
    ∃ collector kernel, self.collector.drain unwinder self.kernel = .ok (collector, kernel) ∧
      t = ⟨kernel, (collector.closeWindow kernel iter).2⟩ := by
  simp only [HeapSystem.step, HeapCollector.snapshotWindow] at hs
  cases hd : self.collector.drain unwinder self.kernel with
  | error e => rw [hd] at hs; cases hs
  | ok r =>
    rw [hd] at hs
    exact ⟨r.1, r.2, rfl, (Option.some.inj hs).symm⟩

theorem snapshotWindow_inv {self t : HeapSystem δ} (h : SystemInv self) {iter : IterOrder}
    (hf : FreesReceived self (.snapshotWindow iter)) (hs : self.step config unwinder (.snapshotWindow iter) = some t) :
    SystemInv t ∧ ∀ p ∈ t.collector.state.live, p ∈ t.kernel.liveSamples := by
  obtain ⟨collector, kernel, hd, rfl⟩ := snapshotWindow_step hs
  have hi := drain_inv h hf hd
  have he : kernel.events = [] := by rw [(drain_eq unwinder hd).2]
  obtain ⟨hl, hp, hr⟩ := closeWindow_frame collector kernel iter
  have hlive : ∀ p ∈ (collector.closeWindow kernel iter).2.state.live, p ∈ kernel.liveSamples := by
    rw [hl]
    exact reconcile_tracked iter he hi.tracked
  refine ⟨⟨hr.trans hi.empty, ?_⟩, hlive⟩
  dsimp only
  rw [hp]
  exact ⟨fun i => Nat.le_refl _, Or.inr fun p hm => hlive p (by rw [he] at hm; exact hm)⟩

theorem step_inv {self t : HeapSystem δ} {step : HeapStep} (h : SystemInv self) (hf : FreesReceived self step)
    (hs : self.step config unwinder step = some t) : SystemInv t := by
  cases step with
  | probe p =>
    obtain ⟨kernel, hk, rfl⟩ := Option.map_eq_some_iff.mp hs
    exact ⟨h.empty, probe_tracked h.tracked hk⟩
  | drain =>
    simp only [HeapSystem.step] at hs
    split at hs
    · rename_i hd
      simp only [Option.some.injEq] at hs
      subst hs
      exact drain_inv h hf hd
    · cases hs
  | snapshotWindow iter => exact (snapshotWindow_inv h hf hs).1
  | clearForExec =>
    simp only [HeapSystem.step, Option.some.injEq] at hs
    subst hs
    refine ⟨h.empty, h.tracked.mono, h.tracked.tracked.imp id fun ht p hp => ht p ?_⟩
    exact mayHold_mono _ (fun hc => absurd hc (AList.notMem_empty p)) hp

/-- No loss before the probes' baseline matters: the kernel tracks what the
undelivered events leave held. -/
def Settled (kernel : HeapBpf) : Prop := ∀ p, MayHold p False kernel.events → p ∈ kernel.liveSamples

/-- **A snapshot leaves no freed pointer in use.** In every run in which the
channel refuses no `FREE` event, what the state holds at the end of a snapshot
is tracked by the kernel or still has its `FREE` event in the ring. -/
theorem snapshot_reconciles (config : BpfConfig) (unwinder : UnwindBytes δ) (kernel : HeapBpf) (maps : List MapEntry)
    (dwarf : Option δ) (allowPartial : Bool) (maxStacks : ℕ) {steps : List HeapStep} {iter : IterOrder}
    {t : HeapSystem δ} (hbase : Settled kernel)
    (hguard : Run.Guarded (HeapSystem.step config unwinder) FreesReceived
      ⟨kernel, .attach kernel maps dwarf allowPartial maxStacks⟩ (steps ++ [.snapshotWindow iter]))
    (hrun : Run.run (HeapSystem.step config unwinder) ⟨kernel, .attach kernel maps dwarf allowPartial maxStacks⟩
      (steps ++ [.snapshotWindow iter]) = some t) :
    ∀ p ∈ t.collector.state.live, p ∈ t.kernel.liveSamples ∨
      ∃ e ∈ t.kernel.events, e.header.kind = .free ∧ e.header.pointer = p := by
  intro p hp
  have h₀ : SystemInv (⟨kernel, .attach kernel maps dwarf allowPartial maxStacks⟩ : HeapSystem δ) := by
    refine ⟨rfl, fun i => Nat.le_refl _, Or.inr fun p hp => hbase p (mayHold_mono _ (fun hc => ?_) hp)⟩
    exact AList.notMem_empty p hc
  obtain ⟨s, hs, hlast⟩ := Run.run_snoc _ hrun
  obtain ⟨hg, hg'⟩ := (Run.guarded_append _ hs).mp hguard
  have hinv : SystemInv s := Run.run_inv _ (fun _ _ _ => step_inv) h₀ hg hs
  exact Or.inl ((snapshotWindow_inv hinv hg'.1 hlast).2 p hp)

end

section
variable {δ : Type} (unwinder : UnwindBytes δ)

theorem applyStacks : ∀ (events : List RawEvent) (self : HeapCollector δ), self.dwarf = none →
    (∀ e ∈ events, e.header.kind = .stack) →
    (events.foldl (HeapCollector.applyRawEvent unwinder) self).state = self.state ∧
      (events.foldl (HeapCollector.applyRawEvent unwinder) self).fatalUnwindError = self.fatalUnwindError
  | [], _, _, _ => ⟨rfl, rfl⟩
  | e :: events, self, hd, hk => by
    have hone : self.applyRawEvent unwinder e = self.applyStack unwinder e := by
      unfold HeapCollector.applyRawEvent
      simp only [hk e List.mem_cons_self]
    have ho := applyStack_stackOnly unwinder self e
    obtain ⟨hd', hf⟩ := ho.unwinder hd
    obtain ⟨h₁, h₂⟩ := applyStacks events (self.applyStack unwinder e) hd' fun x hx => hk x (List.mem_cons_of_mem _ hx)
    rw [List.foldl_cons, hone]
    exact ⟨h₁.trans ho.state, h₂.trans hf⟩

/-- A snapshot that is handed only stacks, with no loss counted, leaves the live set. -/
theorem snapshotWindow_stacks (config : BpfConfig) {s : HeapSystem δ} (hr : s.collector.receiver = [])
    (hd : s.collector.dwarf = none) (hf : s.collector.fatalUnwindError = none)
    (hst : ∀ e ∈ s.kernel.events.take eventQueueCapacity, e.header.kind = .stack)
    (hm : s.kernel.stats .mapEvictions = s.collector.previousStats .mapEvictions)
    (hdr : s.kernel.stats .ringbufDrops = s.collector.previousStats .ringbufDrops) (iter : IterOrder) :
    ∃ t, s.step config unwinder (.snapshotWindow iter) = some t ∧ t.collector.state.live = s.collector.state.live ∧
      t.kernel = { s.kernel with events := [] } := by
  obtain ⟨h₁, h₂⟩ := receiveAll s.kernel.events s.collector
  rw [hr, List.nil_append, List.length_nil, Nat.sub_zero] at h₁
  obtain ⟨hd', hf'⟩ := h₂.unwinder hd
  obtain ⟨hst', hfat⟩ := applyStacks unwinder _ _ hd' (h₁ ▸ hst)
  have hstate : (s.collector.deliver unwinder s.kernel).state = s.collector.state := hst'.trans h₂.state
  have hfatal : (s.collector.deliver unwinder s.kernel).fatalUnwindError = none := (hfat.trans hf').trans hf
  have hprev := (deliver_spec unwinder hr s.kernel).2.1
  generalize hc : s.collector.deliver unwinder s.kernel = c at hstate hfatal hprev
  have hdrain : s.collector.drain unwinder s.kernel = .ok (c, { s.kernel with events := [] }) := by
    unfold HeapCollector.drain
    simp only [hc, hfatal]
  have hrec : c.reconcile { s.kernel with events := [] } iter = c := by
    unfold HeapCollector.reconcile KernelStats.delta
    simp only [hprev, hm, hdr, Nat.sub_self, ne_eq, not_true_eq_false, or_self, ite_false]
  refine ⟨⟨{ s.kernel with events := [] }, (c.closeWindow { s.kernel with events := [] } iter).2⟩, ?_, ?_, rfl⟩
  · simp only [HeapSystem.step, HeapCollector.snapshotWindow, hdrain]
  · rw [(closeWindow_frame c _ iter).1, hrec, hstate]

end

/-! ## Runs -/

def sampledMalloc : ProbeHit where
  tid := 1
  regs := { parm1 := 524288, ip := 0x1000 }
  stackBytes := some [0, 0x10, 0, 0, 0, 0, 0, 0]

def defaultConfig : BpfConfig where
  allocationInterval := 524288
  selectedUnwindMode := 1

def noUnwinder : UnwindBytes Unit := ⟨fun _ _ _ => ({}, ())⟩

def textMapping : MapEntry := ⟨0x1000, 0x2000, [114, 45, 120, 112]⟩

def attached : HeapSystem Unit := ⟨.loaded, .attach .loaded [textMapping] none false 16⟩

def mallocSteps (ptr : UInt64) : List HeapStep :=
  [.probe (.enter .malloc sampledMalloc), .probe (.exit .malloc { tid := 1, regs := { rc := ptr } })]

/-- What a failing `malloc` leaves: one more `STACK` event. -/
theorem failedMalloc {s : HeapSystem Unit} (h : s.kernel.pending = ∅) :
    ∃ k e, Run.run (HeapSystem.step defaultConfig noUnwinder) s (mallocSteps 0) = some { s with kernel := k } ∧
      k.pending = ∅ ∧ k.events = s.kernel.events ++ [e] ∧ e.header.kind = .stack ∧
        k.liveSamples = s.kernel.liveSamples ∧
      k.stats .mapEvictions = s.kernel.stats .mapEvictions ∧ k.stats .ringbufDrops = s.kernel.stats .ringbufDrops := by
  obtain ⟨⟨pending, live, events, stats, token, count⟩, collector⟩ := s
  dsimp only at h
  subst h
  exact ⟨_, _, rfl, rfl, rfl, rfl, rfl, rfl, rfl⟩

def freedBlock : List HeapStep :=
  mallocSteps 0x5000 ++ [.drain, .probe (.free .free { tid := 1, regs := { parm1 := 0x5000 } })]

theorem freedBlock_received : Run.Guarded (HeapSystem.step defaultConfig noUnwinder) FreesReceived attached
    (freedBlock ++ [.snapshotWindow IterOrder.stored]) := by
  refine Run.guarded_cons _ trivial rfl (Run.guarded_cons _ trivial rfl ?_)
  refine Run.guarded_cons _ (Or.inr fun e he => by cases he) rfl (Run.guarded_cons _ trivial rfl ?_)
  exact Run.guarded_cons _ (Or.inr fun e he => by cases he) rfl trivial

theorem snapshot_reconciles_freedBlock : ∃ t, Run.run (HeapSystem.step defaultConfig noUnwinder) attached
      (freedBlock ++ [.snapshotWindow IterOrder.stored]) = some t ∧
    ∀ p ∈ t.collector.state.live, p ∈ t.kernel.liveSamples ∨
      ∃ e ∈ t.kernel.events, e.header.kind = .free ∧ e.header.pointer = p := by
  refine ⟨_, rfl, ?_⟩
  exact snapshot_reconciles defaultConfig noUnwinder .loaded [textMapping] none false 16 (fun _ h => h.elim)
    freedBlock_received rfl

/-! ## A refused free -/

theorem failedMallocs {s : HeapSystem Unit} (h : s.kernel.pending = ∅) (n : ℕ) :
    ∃ k es, Run.run (HeapSystem.step defaultConfig noUnwinder) s (List.replicate n (mallocSteps 0)).flatten =
        some { s with kernel := k } ∧ k.events = s.kernel.events ++ es ∧ es.length = n ∧
      (∀ e ∈ es, e.header.kind = .stack) ∧ k.liveSamples = s.kernel.liveSamples ∧
      k.stats .mapEvictions = s.kernel.stats .mapEvictions ∧ k.stats .ringbufDrops = s.kernel.stats .ringbufDrops := by
  induction n generalizing s with
  | zero => exact ⟨s.kernel, [], rfl, by simp, rfl, by simp, rfl, rfl, rfl⟩
  | succ n ih =>
    obtain ⟨k, e, hrun, hp, hev, hk, hl, hm, hr⟩ := failedMalloc h
    obtain ⟨k', es, hrun', hev', hlen, hst, hl', hm', hr'⟩ := @ih { s with kernel := k } hp
    refine ⟨k', e :: es, ?_, ?_, by simp [hlen], ?_, hl'.trans hl, hm'.trans hm, hr'.trans hr⟩
    · rw [List.replicate_succ, List.flatten_cons, Run.run_append, hrun]
      exact hrun'
    · rw [hev', hev, List.append_assoc]
      rfl
    · intro x hx
      rcases List.mem_cons.mp hx with rfl | hx
      · exact hk
      · exact hst x hx

/-- One allocation delivered, then 4096 that fail, then the free of the first. -/
def refusedFree : List HeapStep :=
  mallocSteps 0x5000 ++ [.drain] ++ ((List.replicate 4096 (mallocSteps 0)).flatten ++
    [.probe (.free .free { tid := 1, regs := { parm1 := 0x5000 } })])

/-- A `FREE` event that the channel refuses leaves its pointer in use, with no
loss counted that would make the snapshot reconcile. -/
theorem refusedFree_stays_live : ∃ t, Run.run (HeapSystem.step defaultConfig noUnwinder) attached
      (refusedFree ++ [.snapshotWindow IterOrder.stored]) = some t ∧
    ¬ ∀ p ∈ t.collector.state.live, p ∈ t.kernel.liveSamples ∨
      ∃ e ∈ t.kernel.events, e.header.kind = .free ∧ e.header.pointer = p := by
  obtain ⟨s, hs, hp, he, hl, hc⟩ : ∃ s, Run.run (HeapSystem.step defaultConfig noUnwinder) attached
        (mallocSteps 0x5000 ++ [.drain]) = some s ∧ s.kernel.pending = ∅ ∧ s.kernel.events = [] ∧
      s.kernel.liveSamples.lookup 0x5000 = some 1 ∧ (∃ a, s.collector.state.live.lookup 0x5000 = some a) ∧
        s.collector.receiver = [] ∧ s.collector.dwarf = none ∧ s.collector.fatalUnwindError = none ∧
        s.kernel.stats .mapEvictions = s.collector.previousStats .mapEvictions ∧
        s.kernel.stats .ringbufDrops = s.collector.previousStats .ringbufDrops :=
    ⟨_, rfl, rfl, rfl, rfl, ⟨_, rfl⟩, rfl, rfl, rfl, rfl, rfl⟩
  obtain ⟨⟨a, ha⟩, hr, hd, hf, hm, hdr⟩ := hc
  obtain ⟨k, es, hrun, hev, hlen, hst, hkl, hkm, hkd⟩ := failedMallocs hp 4096
  rw [he, List.nil_append] at hev
  let hit : ProbeHit := { tid := 1, regs := { parm1 := 0x5000 } }
  -- the kernel announces the free behind the 4096 stacks and forgets the pointer
  have hk : k.liveSamples.lookup 0x5000 = some 1 := by rw [hkl, hl]
  obtain ⟨e, hfe, hfl, hfm, hfd⟩ : ∃ e, (FreeFn.free.enter defaultConfig hit k).events = es ++ [e] ∧
      0x5000 ∉ (FreeFn.free.enter defaultConfig hit k).liveSamples ∧
      (FreeFn.free.enter defaultConfig hit k).stats .mapEvictions = k.stats .mapEvictions ∧
      (FreeFn.free.enter defaultConfig hit k).stats .ringbufDrops = k.stats .ringbufDrops := by
    rw [freeEnter_eq]
    simp only [HeapBpf.freeAllocation, HeapBpf.releaseSample, HeapBpf.emitControl, hit, hk, hev]
    refine ⟨_, rfl, ?_, rfl, rfl⟩
    simp [AList.mem_erase]
  generalize hkf : FreeFn.free.enter defaultConfig hit k = kf at hfe hfl hfm hfd
  have hst' : ∀ x ∈ kf.events.take eventQueueCapacity, x.header.kind = .stack := fun x hx => by
    rw [hfe, eventQueueCapacity, List.take_left' hlen] at hx
    exact hst x hx
  obtain ⟨t, ht, hlive, htk⟩ := @snapshotWindow_stacks _ noUnwinder defaultConfig { s with kernel := kf } hr hd hf
    hst' (hfm.trans (hkm.trans hm)) (hfd.trans (hkd.trans hdr)) IterOrder.stored
  refine ⟨t, ?_, fun hall => ?_⟩
  · unfold refusedFree
    rw [List.append_assoc, Run.run_append, hs, Option.bind_some, List.append_assoc, Run.run_append, hrun,
      Option.bind_some]
    have hfree : HeapSystem.step defaultConfig noUnwinder { s with kernel := k } (.probe (.free .free hit)) =
        some { s with kernel := kf } := by rw [← hkf]; rfl
    rw [List.singleton_append, Run.run_cons, hfree, Option.bind_some, Run.run_cons, ht]
    rfl
  · rcases hall 0x5000 (hlive ▸ Table.mem_of_lookup ha) with hmem | ⟨x, hx, -⟩
    · rw [htk] at hmem
      exact hfl hmem
    · rw [htk] at hx
      exact absurd hx List.not_mem_nil

end RustProfile
