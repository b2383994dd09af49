import RustProfile.OffCpuLemmas
import RustProfile.Lib.Run

/-!
# The balance of off-CPU intervals

Every switch-out that is applied becomes a pending interval or is counted
incomplete, and a pending interval is completed, counted incomplete or still
pending. The kernel counts a stack that could not be read a second time.
-/

namespace RustProfile

open Run

/-- The switch-outs of the window, and the intervals pending before it, are all accounted for. -/
def OffCpuCollector.Balance (self : OffCpuCollector) (before : ℕ) : Prop :=
  self.switchOutEvents + before = self.completedIntervals + self.incompleteIntervals + self.pending.size

/-! ## What the operations do to the balance -/

namespace OffCpuCollector

section
variable (self : OffCpuCollector) (comm : Comm) {before : ℕ}

theorem saturatingAddU64_one {n : ℕ} (h : n < u64Max) : saturatingAddU64 n 1 = n + 1 := min_eq_left h

theorem aggregate_counters (pid tid : UInt32) (stack : Stack) (elapsed : ℕ) (completed : Bool) :
    (self.aggregate comm pid tid stack elapsed completed).switchOutEvents = self.switchOutEvents ∧
    (self.aggregate comm pid tid stack elapsed completed).completedIntervals = self.completedIntervals ∧
    (self.aggregate comm pid tid stack elapsed completed).incompleteIntervals = self.incompleteIntervals ∧
    (self.aggregate comm pid tid stack elapsed completed).previousStats = self.previousStats := by
  unfold aggregate
  dsimp only
  split <;> exact ⟨rfl, rfl, rfl, rfl⟩

variable {self}

theorem size_erase {pending : Table UInt32 PendingInterval} {tid : UInt32} {interval : PendingInterval}
    (h : pending.lookup tid = some interval) : (pending.erase tid).size + 1 = pending.size := by
  have hperm := (Table.entries_perm h).length_eq
  rw [List.length_cons] at hperm
  exact hperm.symm

theorem applySwitchOut_balance (h : self.Balance before) (event : SwitchEvent)
    (hroom : self.switchOutEvents + before < u64Max) :
    (self.applySwitchOut event).Balance before ∧
      (self.applySwitchOut event).switchOutEvents = self.switchOutEvents + 1 := by
  unfold Balance at h
  have hout : saturatingAddU64 self.switchOutEvents 1 = self.switchOutEvents + 1 := saturatingAddU64_one (by omega)
  have hincomplete : saturatingAddU64 self.incompleteIntervals 1 = self.incompleteIntervals + 1 :=
    saturatingAddU64_one (by omega)
  unfold applySwitchOut
  by_cases hf : event.frames = []
  · simp only [hf, if_true]
    refine ⟨?_, hout⟩
    change saturatingAddU64 self.switchOutEvents 1 + before =
      self.completedIntervals + saturatingAddU64 self.incompleteIntervals 1 + self.pending.size
    omega
  · simp only [hf, if_false]
    refine ⟨?_, hout⟩
    by_cases hp : event.tid ∈ self.pending
    · simp only [hp, if_true]
      change saturatingAddU64 self.switchOutEvents 1 + before = self.completedIntervals +
        saturatingAddU64 self.incompleteIntervals 1 + (self.pending.insert event.tid _).size
      rw [Table.size_insert_of_mem hp]
      omega
    · simp only [hp, if_false]
      change saturatingAddU64 self.switchOutEvents 1 + before = self.completedIntervals +
        saturatingAddU64 self.incompleteIntervals 0 + (self.pending.insert event.tid _).size
      rw [Table.size_insert_of_notMem hp, saturatingAddU64_zero (by omega)]
      omega

theorem applySwitchIn_balance (h : self.Balance before) (event : SwitchEvent)
    (hroom : self.switchOutEvents + before ≤ u64Max) :
    (self.applySwitchIn comm event).Balance before ∧
      (self.applySwitchIn comm event).switchOutEvents = self.switchOutEvents := by
  unfold Balance at h
  unfold applySwitchIn
  cases hp : self.pending.lookup event.tid with
  | none => exact ⟨h, rfl⟩
  | some interval =>
    have hsize := size_erase hp
    have hcompleted : saturatingAddU64 self.completedIntervals 1 = self.completedIntervals + 1 :=
      saturatingAddU64_one (by omega)
    dsimp only
    unfold Balance
    obtain ⟨hout, hcomp, hinc, -⟩ := aggregate_counters { self with
      pending := self.pending.erase event.tid
      completedIntervals := saturatingAddU64 self.completedIntervals 1 } comm interval.pid event.tid interval.stack
        (event.timestamp - interval.started) true
    rw [hout, hcomp, hinc, (aggregate_frame _ comm interval.pid event.tid interval.stack
      (event.timestamp - interval.started) true).1]
    refine ⟨?_, rfl⟩
    change self.switchOutEvents + before = saturatingAddU64 self.completedIntervals 1 + self.incompleteIntervals +
      (self.pending.erase event.tid).size
    omega

/-- An event adds at most one switch-out. -/
theorem apply_balance (h : self.Balance before) (event : SwitchEvent)
    (hroom : self.switchOutEvents + before < u64Max) :
    (self.apply comm event).Balance before ∧
      (self.apply comm event).switchOutEvents ≤ self.switchOutEvents + 1 := by
  unfold apply
  cases event.kind with
  | switchOut =>
    obtain ⟨hb, hout⟩ := applySwitchOut_balance h event hroom
    exact ⟨hb, hout.le⟩
  | switchIn =>
    obtain ⟨hb, hout⟩ := applySwitchIn_balance comm h event hroom.le
    exact ⟨hb, hout.le.trans (Nat.le_succ _)⟩

theorem foldl_apply_balance : ∀ (events : List SwitchEvent) {self : OffCpuCollector}, self.Balance before →
    self.switchOutEvents + before + events.length ≤ u64Max →
      (events.foldl (apply · comm) self).Balance before ∧
        (events.foldl (apply · comm) self).switchOutEvents ≤ self.switchOutEvents + events.length
  | [], _, h, _ => ⟨h, Nat.le_refl _⟩
  | event :: events, self, h, hroom => by
    rw [List.length_cons] at hroom
    obtain ⟨hb, hout⟩ := apply_balance comm h event (by omega)
    obtain ⟨hb', hout'⟩ := foldl_apply_balance events hb (by omega)
    rw [List.foldl_cons, List.length_cons]
    exact ⟨hb', by omega⟩

theorem dropThread_balance (h : self.Balance before) (hroom : self.switchOutEvents + before ≤ u64Max)
    (kernel : OffCpuBpf) (tid : UInt32) :
    (self.dropThread kernel tid).2.Balance before ∧
      (self.dropThread kernel tid).2.switchOutEvents = self.switchOutEvents := by
  unfold Balance at h
  unfold dropThread
  dsimp only
  cases hp : self.pending.lookup tid with
  | none => exact ⟨h, rfl⟩
  | some interval =>
    have hsize := size_erase hp
    have hincomplete : saturatingAddU64 self.incompleteIntervals 1 = self.incompleteIntervals + 1 :=
      saturatingAddU64_one (by omega)
    refine ⟨?_, rfl⟩
    change self.switchOutEvents + before = self.completedIntervals + saturatingAddU64 self.incompleteIntervals 1 +
      (self.pending.erase tid).size
    omega

theorem drop_balance : ∀ (l : List UInt32) {state : OffCpuBpf × OffCpuCollector}, state.2.Balance before →
    state.2.switchOutEvents + before ≤ u64Max →
      (l.foldl (fun state tid => state.2.dropThread state.1 tid) state).2.Balance before ∧
        (l.foldl (fun state tid => state.2.dropThread state.1 tid) state).2.switchOutEvents = state.2.switchOutEvents
  | [], _, h, _ => ⟨h, rfl⟩
  | tid :: l, state, h, hroom => by
    obtain ⟨hb, hout⟩ := dropThread_balance h hroom state.1 tid
    rw [List.foldl_cons]
    obtain ⟨hb', hout'⟩ := drop_balance l hb (hout ▸ hroom)
    exact ⟨hb', hout'.trans hout⟩

theorem splitPending_counters (boundary : ℕ) (iter : IterOrder) :
    (self.splitPending comm boundary iter).switchOutEvents = self.switchOutEvents ∧
    (self.splitPending comm boundary iter).completedIntervals = self.completedIntervals ∧
    (self.splitPending comm boundary iter).incompleteIntervals = self.incompleteIntervals ∧
    (self.splitPending comm boundary iter).previousStats = self.previousStats ∧
    (self.splitPending comm boundary iter).pending.size = self.pending.size := by
  unfold splitPending chargePending
  dsimp only
  refine ⟨foldl_frame switchOutEvents (fun s e => (s.aggregate_counters comm _ _ _ _ _).1) _ _,
    foldl_frame completedIntervals (fun s e => (s.aggregate_counters comm _ _ _ _ _).2.1) _ _,
    foldl_frame incompleteIntervals (fun s e => (s.aggregate_counters comm _ _ _ _ _).2.2.1) _ _,
    foldl_frame previousStats (fun s e => (s.aggregate_counters comm _ _ _ _ _).2.2.2) _ _, ?_⟩
  rw [foldl_frame pending (fun s e => (s.aggregate_frame comm _ _ _ _ _).1)]
  exact List.length_map _

theorem apply_previousStats (self : OffCpuCollector) (event : SwitchEvent) :
    (self.apply comm event).previousStats = self.previousStats := by
  unfold apply applySwitchOut applySwitchIn
  cases event.kind with
  | switchOut =>
    dsimp only
    split <;> rfl
  | switchIn =>
    dsimp only
    split
    · exact (aggregate_counters _ comm _ _ _ _ _).2.2.2
    · rfl

theorem dropThread_previousStats (self : OffCpuCollector) (kernel : OffCpuBpf) (tid : UInt32) :
    (self.dropThread kernel tid).2.previousStats = self.previousStats := by
  unfold dropThread
  dsimp only
  split <;> rfl

/-- A drain applies the first events of the ring to a collector with the same counters. -/
theorem drain_taking (kernel : OffCpuBpf) (hr : self.receiver = []) : ∃ taking : OffCpuCollector,
    self.drain comm kernel =
      ((kernel.events.take offCpuQueueCapacity).foldl (OffCpuCollector.apply · comm) taking,
        { kernel with events := [] }) ∧
    taking.receiver = [] ∧ taking.pending = self.pending ∧ taking.previousStats = self.previousStats ∧
    taking.switchOutEvents = self.switchOutEvents ∧ taking.incompleteIntervals = self.incompleteIntervals ∧
    (self.Balance before → taking.Balance before) := by
  obtain ⟨drops, hd⟩ := self.drain_eq comm kernel hr
  exact ⟨_, hd, hr, rfl, rfl, rfl, rfl, id⟩

theorem update_kernel {tracked : Table UInt32 UInt32} :
    ∀ {l : List (Σ _ : UInt32, UInt32)} {kernel kernel' : OffCpuBpf}, l.foldlM (fun (kernel : OffCpuBpf) entry =>
      if tracked.lookup entry.1 = some entry.2 then some kernel else kernel.updateTracked entry.1 entry.2) kernel =
        some kernel' → kernel'.events = kernel.events ∧ kernel'.stats = kernel.stats
  | [], kernel, kernel', h => by
    cases h
    exact ⟨rfl, rfl⟩
  | entry :: l, kernel, kernel', h => by
    rw [List.foldlM_cons] at h
    obtain ⟨mid, hmid, hrest⟩ := Option.bind_eq_some_iff.mp h
    obtain ⟨hevents, hstats⟩ := update_kernel hrest
    by_cases hl : tracked.lookup entry.1 = some entry.2
    · rw [if_pos hl] at hmid
      cases hmid
      exact ⟨hevents, hstats⟩
    · rw [if_neg hl] at hmid
      rw [updateTracked_eq hmid] at hevents hstats
      exact ⟨hevents, hstats⟩

/-- A successful reconciliation drops the threads that are gone, one after another. -/
theorem applyThreads_drops {kernel kernel' : OffCpuBpf} {current : Table UInt32 UInt32} {iter : IterOrder}
    {after : OffCpuCollector} (h : self.applyThreads kernel current iter = .ok (kernel', after)) :
    ∃ mid, mid.events = kernel.events ∧ mid.stats = kernel.stats ∧ ∃ final,
      final = (iter.order (self.trackedTids.keys.filter (· ∉ current))).foldl
        (fun state tid => state.2.dropThread state.1 tid) (mid, self) ∧
      kernel' = final.1 ∧ after = { final.2 with trackedTids := current } := by
  unfold applyThreads at h
  split at h
  · cases h
  extract_lets updated left at h
  obtain hmid | ⟨mid, hmid⟩ := updated.eq_none_or_eq_some
  · rw [hmid] at h
    cases h
  rw [hmid] at h
  dsimp only at h
  obtain ⟨hevents, hstats⟩ := update_kernel hmid
  refine ⟨mid, hevents, hstats, _, rfl, ?_⟩
  cases h
  exact ⟨rfl, rfl⟩

end

end OffCpuCollector

/-! ## The kernel's count -/

def OffCpuBpf.stackFails (self : OffCpuBpf) (hit : SwitchHit) : Bool :=
  (self.trackedTids.lookup hit.prevTid).isSome && hit.reserveOut && hit.stack.isNone

theorem OffCpuBpf.emitSwitchIn_failures (self : OffCpuBpf) (hit : SwitchHit) (pid tid : UInt32) :
    (self.emitSwitchIn hit pid tid).stats.stackFailures = self.stats.stackFailures := by
  unfold emitSwitchIn
  split <;> rfl

theorem OffCpuBpf.schedSwitch_failures (self : OffCpuBpf) (hit : SwitchHit) :
    (self.schedSwitch hit).stats.stackFailures = self.stats.stackFailures + (self.stackFails hit).toNat := by
  unfold schedSwitch
  extract_lets out
  have hout : out.stats.stackFailures = self.stats.stackFailures + (self.stackFails hit).toNat := by
    unfold out stackFails
    cases self.trackedTids.lookup hit.prevTid with
    | none => rfl
    | some pid =>
      unfold emitSwitchOut
      cases hit.reserveOut with
      | false => rfl
      | true =>
        cases hit.stack with
        | none => rfl
        | some ips => rfl
  cases out.trackedTids.lookup hit.nextTid with
  | none => exact hout
  | some pid => exact (out.emitSwitchIn_failures hit pid hit.nextTid).trans hout

end RustProfile
