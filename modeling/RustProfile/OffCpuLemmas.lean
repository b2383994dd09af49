import RustProfile.OffCpu

/-!
# What the off-CPU operations do

One specification for each operation of the kernel program and the collector.
-/

namespace RustProfile

/-- The last switch of thread `tid` among `events` that is not discarded for want of a stack. -/
def lastSwitch (events : List SwitchEvent) (tid : UInt32) : Option SwitchEvent :=
  (events.filter fun event => event.tid = tid ∧ (event.kind = .switchIn ∨ event.frames ≠ [])).getLast?

theorem mem_of_lastSwitch {events : List SwitchEvent} {tid : UInt32} {event : SwitchEvent}
    (h : lastSwitch events tid = some event) :
    event ∈ events ∧ event.tid = tid ∧ (event.kind = .switchIn ∨ event.frames ≠ []) := by
  have := List.mem_of_getLast? h
  simpa only [List.mem_filter, decide_eq_true_eq] using this

theorem lastSwitch_snoc (events : List SwitchEvent) (event : SwitchEvent) (tid : UInt32) :
    lastSwitch (events ++ [event]) tid =
      if event.tid = tid ∧ (event.kind = .switchIn ∨ event.frames ≠ []) then some event else lastSwitch events tid := by
  unfold lastSwitch
  rw [List.filter_append]
  split
  · rename_i h
    rw [List.filter_cons_of_pos (by simpa using h), List.filter_nil, List.getLast?_concat]
  · rename_i h
    rw [List.filter_cons_of_neg (by simpa using h), List.filter_nil, List.append_nil]

theorem lastSwitch_append {events new : List SwitchEvent} {tid : UInt32} {event : SwitchEvent}
    (h : lastSwitch (events ++ new) tid = some event) :
    (event ∈ new ∧ event.tid = tid) ∨ lastSwitch events tid = some event := by
  cases hn : lastSwitch new tid with
  | some last =>
    have hlast : lastSwitch new tid = some event := ?_
    · exact Or.inl ⟨(mem_of_lastSwitch hlast).1, (mem_of_lastSwitch hlast).2.1⟩
    refine hn.trans ?_
    unfold lastSwitch at h hn
    rw [List.filter_append, List.getLast?_append, hn] at h
    exact h
  | none =>
    refine Or.inr ?_
    unfold lastSwitch at h hn ⊢
    rw [List.filter_append, List.getLast?_append, hn] at h
    exact h

/-! ## The kernel program -/

namespace OffCpuBpf

variable (self : OffCpuBpf) (hit : SwitchHit)

structure Emits (kernel : OffCpuBpf) (hit : SwitchHit) (kernel' : OffCpuBpf) (new : List SwitchEvent) : Prop where
  events : kernel'.events = kernel.events ++ new
  trackedTids : kernel'.trackedTids = kernel.trackedTids
  tracked : ∀ event ∈ new, kernel.trackedTids.lookup event.tid = some event.pid
  stack : ∀ event ∈ new, event.kind = .switchOut →
    event.tid = hit.prevTid ∧ event.ips = hit.stack.getD [] ∧ event.stackLen = 8 * event.ips.length

theorem emitSwitchOut_emits {pid : UInt32} (h : self.trackedTids.lookup hit.prevTid = some pid) :
    ∃ new, Emits self hit (self.emitSwitchOut hit pid hit.prevTid) new := by
  unfold emitSwitchOut
  split
  · cases hs : hit.stack with
    | some ips =>
      exact ⟨[_], rfl, rfl, List.forall_mem_singleton.mpr h,
        List.forall_mem_singleton.mpr fun _ => ⟨rfl, by simp [hs], rfl⟩⟩
    | none =>
      exact ⟨[_], rfl, rfl, List.forall_mem_singleton.mpr h,
        List.forall_mem_singleton.mpr fun _ => ⟨rfl, by simp [hs], rfl⟩⟩
  · exact ⟨[], (List.append_nil _).symm, rfl, by simp, by simp⟩

theorem emitSwitchIn_emits {pid : UInt32} (h : self.trackedTids.lookup hit.nextTid = some pid) :
    ∃ new, Emits self hit (self.emitSwitchIn hit pid hit.nextTid) new := by
  unfold emitSwitchIn
  split
  · exact ⟨[_], rfl, rfl, List.forall_mem_singleton.mpr h, List.forall_mem_singleton.mpr fun hk => by cases hk⟩
  · exact ⟨[], (List.append_nil _).symm, rfl, by simp, by simp⟩

theorem Emits.refl : Emits self hit self [] := ⟨(List.append_nil _).symm, rfl, by simp, by simp⟩

variable {self hit}

theorem Emits.trans {kernel kernel' : OffCpuBpf} {new new' : List SwitchEvent} (h : Emits self hit kernel new)
    (h' : Emits kernel hit kernel' new') : Emits self hit kernel' (new ++ new') := by
  refine ⟨by rw [h'.events, h.events, List.append_assoc], h'.trackedTids.trans h.trackedTids, ?_, ?_⟩
  · exact List.forall_mem_append.mpr ⟨h.tracked, fun e he => h.trackedTids ▸ h'.tracked e he⟩
  · exact List.forall_mem_append.mpr ⟨h.stack, h'.stack⟩

variable (self hit)

theorem schedSwitch_emits : ∃ new, Emits self hit (self.schedSwitch hit) new := by
  unfold schedSwitch
  dsimp only
  cases hp : self.trackedTids.lookup hit.prevTid with
  | none =>
    dsimp only
    cases hn : self.trackedTids.lookup hit.nextTid with
    | none => exact ⟨[], .refl self hit⟩
    | some pid => exact self.emitSwitchIn_emits hit hn
  | some pid =>
    obtain ⟨new, hnew⟩ := self.emitSwitchOut_emits hit hp
    dsimp only
    rw [hnew.trackedTids]
    cases hn : self.trackedTids.lookup hit.nextTid with
    | none => exact ⟨new, hnew⟩
    | some pid' =>
      obtain ⟨new', hnew'⟩ := emitSwitchIn_emits _ hit ((congrArg _ hnew.trackedTids).trans hn)
      exact ⟨_, hnew.trans hnew'⟩

end OffCpuBpf

/-! ## The collector -/

namespace OffCpuCollector

section
variable (self : OffCpuCollector) (comm : Comm)

theorem aggregate_frame (pid tid : UInt32) (stack : Stack) (elapsed : ℕ) (completed : Bool) :
    (self.aggregate comm pid tid stack elapsed completed).pending = self.pending ∧
    (self.aggregate comm pid tid stack elapsed completed).trackedTids = self.trackedTids ∧
    (self.aggregate comm pid tid stack elapsed completed).receiver = self.receiver := by
  unfold aggregate
  dsimp only
  split <;> exact ⟨rfl, rfl, rfl⟩

theorem aggregate_samples {pid tid : UInt32} {stack : Stack} {elapsed : ℕ} {completed : Bool}
    {key : AttributedStack} (h : key ∈ (self.aggregate comm pid tid stack elapsed completed).samples) :
    key ∈ self.samples ∨ key.tid = tid := by
  unfold aggregate Capped.offer at h
  dsimp only at h
  split at h
  · rename_i samples hs
    split at hs
    · cases hs
      exact ((AList.mem_insert _).mp h).symm.imp id fun e => by rw [e]
    · split at hs
      · cases hs
        exact ((AList.mem_insert _).mp h).symm.imp id fun e => by rw [e]
      · cases hs
  · exact Or.inl h

theorem apply_frame (event : SwitchEvent) :
    (self.apply comm event).trackedTids = self.trackedTids ∧ (self.apply comm event).receiver = self.receiver := by
  unfold apply applySwitchOut applySwitchIn
  split
  · dsimp only
    split <;> exact ⟨rfl, rfl⟩
  · split
    · exact ⟨(aggregate_frame ..).2.1, (aggregate_frame ..).2.2⟩
    · exact ⟨rfl, rfl⟩

/-- What one event does to the pending interval of `tid`. -/
def pendingAfter (pending : Option PendingInterval) (event : SwitchEvent) : Option PendingInterval :=
  match event.kind with
  | .switchOut =>
    if event.frames = [] then pending
    else some { pid := event.pid, started := event.timestamp, stack := Stack.ofAddresses event.frames }
  | .switchIn => none

theorem apply_pending (event : SwitchEvent) (tid : UInt32) :
    (self.apply comm event).pending.lookup tid =
      if event.tid = tid then pendingAfter (self.pending.lookup tid) event else self.pending.lookup tid := by
  unfold apply pendingAfter
  cases event.kind with
  | switchOut =>
    unfold applySwitchOut
    by_cases hf : event.frames = []
    · simp [hf]
    · simp only [hf, ite_false, Table.lookup_insert, eq_comm]
  | switchIn =>
    unfold applySwitchIn
    dsimp only
    split
    · rw [(aggregate_frame ..).1]
      simp only [Table.lookup_erase, eq_comm]
    · rename_i hn
      split
      · rename_i ht; rw [← ht, hn]
      · rfl

theorem apply_samples {event : SwitchEvent} {key : AttributedStack} (h : key ∈ (self.apply comm event).samples) :
    key ∈ self.samples ∨ key.tid = event.tid := by
  unfold apply applySwitchOut applySwitchIn at h
  dsimp only at h
  split at h
  · split at h <;> exact Or.inl h
  · split at h
    · have hk := aggregate_samples _ comm h
      exact hk
    · exact Or.inl h

/-- The pending interval of `tid` is the one of its last switch. -/
theorem foldl_apply_pending (events : List SwitchEvent) (tid : UInt32) :
    (events.foldl (apply · comm) self).pending.lookup tid =
      match lastSwitch events tid with
      | some event => pendingAfter none event
      | none => self.pending.lookup tid := by
  induction events using List.reverseRecOn with
  | nil => rfl
  | append_singleton events event ih =>
    rw [List.foldl_append, List.foldl_cons, List.foldl_nil, apply_pending, lastSwitch_snoc, ih]
    by_cases ht : event.tid = tid
    · by_cases he : event.kind = .switchIn ∨ event.frames ≠ []
      · simp only [ht, he, and_self, ite_true]
        unfold pendingAfter
        rcases he with hk | hf
        · rw [hk]
        · simp only [hf, ite_false]
      · obtain ⟨hk, hf⟩ := not_or.mp he
        have hk : event.kind = .switchOut := by
          cases h : event.kind with
          | switchOut => rfl
          | switchIn => exact absurd h hk
        simp [ht, hk, not_not.mp hf, pendingAfter]
    · simp [ht]

theorem foldl_apply_frame (events : List SwitchEvent) :
    (events.foldl (apply · comm) self).trackedTids = self.trackedTids ∧
    (events.foldl (apply · comm) self).receiver = self.receiver :=
  ⟨foldl_frame trackedTids (fun s e => (s.apply_frame comm e).1) events self,
    foldl_frame receiver (fun s e => (s.apply_frame comm e).2) events self⟩

theorem foldl_apply_samples {events : List SwitchEvent} {key : AttributedStack}
    (h : key ∈ (events.foldl (apply · comm) self).samples) :
    key ∈ self.samples ∨ ∃ event ∈ events, key.tid = event.tid := by
  induction events using List.reverseRecOn with
  | nil => exact Or.inl h
  | append_singleton events event ih =>
    rw [List.foldl_append, List.foldl_cons, List.foldl_nil] at h
    rcases apply_samples _ comm h with h | h
    · exact (ih h).imp id fun ⟨e, he, hk⟩ => ⟨e, List.mem_append_left _ he, hk⟩
    · exact Or.inr ⟨event, by simp, h⟩

/-- The channel takes the first events of the ring; receiving touches nothing else. -/
theorem foldl_receive (events : List SwitchEvent) :
    ∃ drops, events.foldl receive self = { self with
      receiver := self.receiver ++ events.take (offCpuQueueCapacity - self.receiver.length)
      userspaceDrops := self.userspaceDrops + drops } := by
  induction events generalizing self with
  | nil => exact ⟨0, by simp⟩
  | cons event events ih =>
    rw [List.foldl_cons]
    obtain ⟨drops, hd⟩ := ih (self.receive event)
    rw [hd]
    unfold receive
    split
    · rename_i hr
      refine ⟨drops, ?_⟩
      rw [show offCpuQueueCapacity - self.receiver.length = (offCpuQueueCapacity - (self.receiver.length + 1)) + 1
        by omega]
      simp
    · rename_i hr
      refine ⟨1 + drops, ?_⟩
      rw [Nat.sub_eq_zero_of_le (Nat.le_of_not_lt hr)]
      simp [Nat.add_assoc]

theorem drain_eq (kernel : OffCpuBpf) (hr : self.receiver = []) :
    ∃ drops, self.drain comm kernel =
      ((kernel.events.take offCpuQueueCapacity).foldl (apply · comm)
        { self with userspaceDrops := self.userspaceDrops + drops }, { kernel with events := [] }) := by
  obtain ⟨drops, hd⟩ := self.foldl_receive kernel.events
  refine ⟨drops, ?_⟩
  unfold drain
  simp only [hd, hr, List.nil_append, List.length_nil, Nat.sub_zero]

theorem chargePending_frame (boundary : ℕ) (entry : Σ _ : UInt32, PendingInterval) :
    (self.chargePending comm boundary entry).pending = self.pending ∧
    (self.chargePending comm boundary entry).trackedTids = self.trackedTids ∧
    (self.chargePending comm boundary entry).receiver = self.receiver := self.aggregate_frame ..

theorem splitPending_frame (boundary : ℕ) (iter : IterOrder) :
    (self.splitPending comm boundary iter).trackedTids = self.trackedTids ∧
    (self.splitPending comm boundary iter).receiver = self.receiver ∧
    ∀ tid, (self.splitPending comm boundary iter).pending.lookup tid =
      (self.pending.lookup tid).map fun interval => { interval with started := boundary } := by
  unfold splitPending
  dsimp only
  refine ⟨foldl_frame trackedTids (fun s e => (s.chargePending_frame comm boundary e).2.1) _ _,
    foldl_frame receiver (fun s e => (s.chargePending_frame comm boundary e).2.2) _ _, fun tid => ?_⟩
  rw [foldl_frame pending (fun s e => (s.chargePending_frame comm boundary e).1), Table.lookup_mapValues]

theorem splitPending_samples {boundary : ℕ} {iter : IterOrder} {key : AttributedStack}
    (h : key ∈ (self.splitPending comm boundary iter).samples) : key ∈ self.samples ∨ key.tid ∈ self.pending := by
  have loop : ∀ (l : List (Σ _ : UInt32, PendingInterval)) (s : OffCpuCollector),
      key ∈ (l.foldl (chargePending · comm boundary) s).samples →
      key ∈ s.samples ∨ ∃ e ∈ l, key.tid = e.1 := by
    intro l
    induction l with
    | nil => exact fun s h => Or.inl h
    | cons e l ih =>
      intro s h
      rcases ih _ h with h | ⟨e', he', hk⟩
      · exact (aggregate_samples _ comm h).imp id fun hk => ⟨e, by simp, hk⟩
      · exact Or.inr ⟨e', List.mem_cons_of_mem _ he', hk⟩
  unfold splitPending at h
  refine (loop _ _ h).imp id fun ⟨e, he, hk⟩ => ?_
  have he := (iter.perm _).mem_iff.mp he
  rw [hk]
  exact Table.mem_of_lookup (Table.mem_entries.mp he)

/-! ## Reconciliation -/

theorem updateTracked_eq {kernel kernel' : OffCpuBpf} {tid pid : UInt32}
    (h : kernel.updateTracked tid pid = some kernel') :
    kernel' = { kernel with trackedTids := kernel.trackedTids.insert tid pid } := by
  unfold OffCpuBpf.updateTracked at h
  split at h
  · exact (Option.some.inj h).symm
  · cases h

theorem update_loop {current : Table UInt32 UInt32} : ∀ {l : List (Σ _ : UInt32, UInt32)} {kernel kernel' : OffCpuBpf},
    (∀ e ∈ l, current.lookup e.1 = some e.2) →
    (∀ tid, kernel.trackedTids.lookup tid = self.trackedTids.lookup tid ∨
      kernel.trackedTids.lookup tid = current.lookup tid) →
    l.foldlM (fun (kernel : OffCpuBpf) e =>
      if self.trackedTids.lookup e.1 = some e.2 then some kernel else kernel.updateTracked e.1 e.2) kernel =
        some kernel' →
    kernel'.events = kernel.events ∧ kernel'.stats = kernel.stats ∧
      ∀ tid, kernel'.trackedTids.lookup tid =
        if tid ∈ l.map (·.1) then current.lookup tid else kernel.trackedTids.lookup tid
  | [], kernel, kernel', _, _, h => by
    cases h
    simp
  | e :: l, kernel, kernel', hl, hk, h => by
    rw [List.foldlM_cons] at h
    obtain ⟨mid, hmid, hrest⟩ := Option.bind_eq_some_iff.mp h
    have hcur : current.lookup e.1 = some e.2 := hl e (by simp)
    -- An entry the collector already had is skipped: the kernel's map then holds that value too (`hk`).
    have step : mid.events = kernel.events ∧ mid.stats = kernel.stats ∧
        ∀ tid, mid.trackedTids.lookup tid =
          if tid = e.1 then current.lookup tid else kernel.trackedTids.lookup tid := by
      split at hmid
      · rename_i hskip
        cases hmid
        refine ⟨rfl, rfl, fun tid => ?_⟩
        split
        · rename_i ht
          subst ht
          rcases hk e.1 with h | h
          · rw [h, hskip, hcur]
          · exact h
        · rfl
      · rw [updateTracked_eq hmid]
        refine ⟨rfl, rfl, fun tid => ?_⟩
        rw [Table.lookup_insert]
        split
        · rename_i ht
          rw [ht, hcur]
        · rfl
    obtain ⟨hev, hst, hlook⟩ := step
    have hmid' : ∀ tid, mid.trackedTids.lookup tid = self.trackedTids.lookup tid ∨
        mid.trackedTids.lookup tid = current.lookup tid := fun tid => by
      rw [hlook]
      split
      · exact Or.inr rfl
      · exact hk tid
    obtain ⟨hev', hst', hlook'⟩ := update_loop (fun e he => hl e (List.mem_cons_of_mem _ he)) hmid' hrest
    refine ⟨hev'.trans hev, hst'.trans hst, fun tid => ?_⟩
    rw [hlook', hlook, List.map_cons]
    by_cases ht : tid = e.1
    · simp [ht]
    · simp only [ht, List.mem_cons, false_or, ite_false]

structure Dropped (before : OffCpuBpf × OffCpuCollector) (l : List UInt32) (after : OffCpuBpf × OffCpuCollector) :
    Prop where
  events : after.1.events = before.1.events
  stats : after.1.stats = before.1.stats
  tracked : ∀ tid, after.1.trackedTids.lookup tid = if tid ∈ l then none else before.1.trackedTids.lookup tid
  pending : ∀ tid, after.2.pending.lookup tid = if tid ∈ l then none else before.2.pending.lookup tid
  receiver : after.2.receiver = before.2.receiver
  samples : after.2.samples = before.2.samples
  maxStacks : after.2.maxStacks = before.2.maxStacks
  aggregationDropped : after.2.aggregationDroppedEvents = before.2.aggregationDroppedEvents

theorem dropThread_dropped (kernel : OffCpuBpf) (tid : UInt32) :
    Dropped (kernel, self) [tid] (self.dropThread kernel tid) := by
  unfold dropThread
  dsimp only
  cases hp : self.pending.lookup tid with
  | some interval =>
    refine ⟨rfl, rfl, fun t => ?_, fun t => ?_, rfl, rfl, rfl, rfl⟩ <;> simp [Table.lookup_erase]
  | none =>
    refine ⟨rfl, rfl, fun t => ?_, fun t => ?_, rfl, rfl, rfl, rfl⟩
    · simp [Table.lookup_erase]
    · by_cases ht : t = tid
      · subst ht; simp [hp]
      · simp [ht]

theorem drop_loop : ∀ (l : List UInt32) (state : OffCpuBpf × OffCpuCollector),
    Dropped state l (l.foldl (fun state tid => state.2.dropThread state.1 tid) state)
  | [], _ => ⟨rfl, rfl, by simp, by simp, rfl, rfl, rfl, rfl⟩
  | tid :: l, state => by
    have h := state.2.dropThread_dropped state.1 tid
    have ih := drop_loop l (state.2.dropThread state.1 tid)
    rw [List.foldl_cons]
    refine ⟨ih.events.trans h.events, ih.stats.trans h.stats, fun t => ?_, fun t => ?_, ih.receiver.trans h.receiver,
      ih.samples.trans h.samples, ih.maxStacks.trans h.maxStacks, ih.aggregationDropped.trans h.aggregationDropped⟩
    · rw [ih.tracked, h.tracked]
      by_cases ht : t = tid <;> simp [ht]
    · rw [ih.pending, h.pending]
      by_cases ht : t = tid <;> simp [ht]

structure Reconciled (before : OffCpuCollector) (kernel : OffCpuBpf) (current : Table UInt32 UInt32)
    (kernel' : OffCpuBpf) (after : OffCpuCollector) : Prop where
  events : kernel'.events = kernel.events
  trackedTids : after.trackedTids = current
  tracked : ∀ tid, kernel'.trackedTids.lookup tid = current.lookup tid
  pending : ∀ tid, after.pending.lookup tid =
    if tid ∈ before.trackedTids ∧ tid ∉ current then none else before.pending.lookup tid
  receiver : after.receiver = before.receiver
  samples : after.samples = before.samples
  maxStacks : after.maxStacks = before.maxStacks
  aggregationDropped : after.aggregationDroppedEvents = before.aggregationDroppedEvents

theorem applyThreads_reconciled {kernel kernel' : OffCpuBpf} {current : Table UInt32 UInt32} {iter : IterOrder}
    {after : OffCpuCollector} (hk : ∀ tid, kernel.trackedTids.lookup tid = self.trackedTids.lookup tid)
    (h : self.applyThreads kernel current iter = .ok (kernel', after)) :
    self.Reconciled kernel current kernel' after := by
  unfold applyThreads at h
  split at h
  · cases h
  extract_lets updated left at h
  obtain hmid | ⟨mid, hmid⟩ := updated.eq_none_or_eq_some
  · rw [hmid] at h
    cases h
  rw [hmid] at h
  dsimp only at h
  have hloop := drop_loop left (mid, self)
  have hmem : ∀ e, e ∈ iter.order current.entries ↔ current.lookup e.1 = some e.2 := fun e =>
    (iter.perm _).mem_iff.trans Table.mem_entries
  obtain ⟨hev, hst, hlook⟩ := self.update_loop (fun e he => (hmem e).mp he) (fun tid => Or.inl (hk tid)) hmid
  have hleft : ∀ tid, tid ∈ left ↔ tid ∈ self.trackedTids ∧ tid ∉ current := fun tid => by
    rw [(iter.perm _).mem_iff, List.mem_filter, decide_eq_true_eq]
    exact Iff.rfl
  have hin : ∀ tid, tid ∈ (iter.order current.entries).map (·.1) ↔ tid ∈ current := fun tid => by
    rw [List.mem_map, Table.mem_iff]
    constructor
    · rintro ⟨e, he, rfl⟩
      exact ⟨e.2, (hmem e).mp he⟩
    · rintro ⟨pid, hp⟩
      exact ⟨⟨tid, pid⟩, (hmem _).mpr hp, rfl⟩
  generalize left.foldl (fun state tid => state.2.dropThread state.1 tid) (mid, self) = final at h hloop
  cases h
  refine ⟨hloop.events.trans hev, rfl, fun tid => ?_, fun tid => ?_, hloop.receiver, hloop.samples, hloop.maxStacks,
    hloop.aggregationDropped⟩
  · simp only [hloop.tracked, hlook, hleft, hin, hk]
    by_cases hc : tid ∈ current
    · simp [hc]
    · rw [Table.notMem_iff.mp hc]
      by_cases ht : tid ∈ self.trackedTids
      · simp [ht, hc]
      · simp [ht, hc, Table.notMem_iff.mp ht]
  · simp only [hloop.pending, hleft]

end

theorem attach_ok {current : Table UInt32 UInt32} {iter : IterOrder} {maxStacks maxThreads : ℕ} {kernel : OffCpuBpf}
    {collector : OffCpuCollector} (h : attach current iter maxStacks maxThreads = .ok (kernel, collector)) :
    ∃ tracking, (new maxStacks maxThreads).applyThreads .loaded current iter = .ok (kernel, tracking) ∧
      collector = { tracking with previousStats := kernel.stats } := by
  unfold attach at h
  cases ha : (new maxStacks maxThreads).applyThreads .loaded current iter with
  | error message =>
    rw [ha] at h
    cases h
  | ok state =>
    rw [ha] at h
    cases h
    exact ⟨_, rfl, rfl⟩

end OffCpuCollector

end RustProfile
