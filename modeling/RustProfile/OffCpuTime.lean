import RustProfile.OffCpuLemmas
import RustProfile.Lib.Meter
import RustProfile.Lib.Run

/-!
# Off-CPU time across windows

A recording keeps the windows it has closed and a log of what the collector saw:
the switches in the order they were drained, and the boundaries. The collector
meters each thread: a snapshot charges what the boundary leaves of a pending
interval and restarts it there. What it charges in all is the off-CPU time of
the thread exactly when no switch-in is drained after a boundary that is later
than it.
-/

namespace RustProfile

open Run

/-! ## Recordings -/

inductive LogEntry where
  | switched (event : SwitchEvent)
  | boundary (nanos : ℕ)
  deriving DecidableEq, Repr

structure OffCpuRecording where
  sys : OffCpuSystem
  windows : List OffCpuCollector.Window
  log : List LogEntry

namespace OffCpuRecording

def start (kernel : OffCpuBpf) (collector : OffCpuCollector) : OffCpuRecording := ⟨⟨kernel, collector⟩, [], []⟩

def step (r : OffCpuRecording) (a : OffCpuStep) : Option OffCpuRecording :=
  (r.sys.step a).map fun sys => match a with
    | .drain _ => { r with sys := sys, log := r.log ++ r.sys.kernel.events.map .switched }
    | .snapshotWindow comm boundary iter =>
      { sys := sys
        windows := r.windows ++ [r.sys.window comm boundary iter]
        log := r.log ++ (r.sys.kernel.events.map .switched ++ [.boundary boundary]) }
    | _ => { r with sys := sys }

end OffCpuRecording

def SwitchEvent.tick (event : SwitchEvent) : Tick :=
  match event.kind with
  | .switchOut => .start event.timestamp
  | .switchIn => .stop event.timestamp

/-- What a log entry is to thread `tid`. -/
def LogEntry.tick (tid : UInt32) : LogEntry → Option Tick
  | .switched event => if event.tid = tid then some event.tick else none
  | .boundary nanos => some (.cut nanos)

def ticks (tid : UInt32) (log : List LogEntry) : List Tick := log.filterMap (LogEntry.tick tid)

def nanosecondsOf (tid : UInt32) (samples : Table AttributedStack OffCpuValues) : ℤ :=
  Table.sumOver (fun key value => if key.tid = tid then value.nanoseconds else 0) samples

/-- The step loses nothing of thread `tid`: its switch-out has a stack, it is not
dropped while it is pending, and the channel takes the whole ring. -/
def Lossless (tid : UInt32) (r : OffCpuRecording) : OffCpuStep → Prop
  | .schedSwitch hit => hit.prevTid = tid → ∃ ip ∈ (hit.stack.getD []).take 127, ip ≠ 0
  | .applyThreads current _ => tid ∈ current ∨ tid ∉ r.sys.collector.pending
  | _ => r.sys.kernel.events.length ≤ offCpuQueueCapacity

theorem ticks_append (tid : UInt32) (log new : List LogEntry) :
    ticks tid (log ++ new) = ticks tid log ++ ticks tid new :=
  List.filterMap_append

theorem ticks_switched (tid : UInt32) (events : List SwitchEvent) :
    ∀ a ∈ ticks tid (events.map .switched), a.isCut = false := by
  intro a ha
  obtain ⟨entry, he, hea⟩ := List.mem_filterMap.mp ha
  obtain ⟨event, -, rfl⟩ := List.mem_map.mp he
  unfold LogEntry.tick SwitchEvent.tick at hea
  dsimp only at hea
  split at hea
  · cases hk : event.kind <;> rw [hk] at hea <;> cases hea <;> rfl
  · cases hea

/-! ## Charging a thread -/

structure Charged (tid : UInt32) (samples : Table AttributedStack OffCpuValues) (w : ℕ) : Prop where
  nonneg : ∀ key value, samples.lookup key = some value → key.tid = tid → 0 ≤ value.nanoseconds
  total : nanosecondsOf tid samples = w

theorem saturatingAddU64_one_ne_zero (n : ℕ) : saturatingAddU64 n 1 ≠ 0 := by
  unfold saturatingAddU64 Sat.add u64Max
  omega

theorem nanosecondsOf_insert {tid : UInt32} (samples : Table AttributedStack OffCpuValues) (key : AttributedStack)
    (value : OffCpuValues) :
    nanosecondsOf tid (samples.insert key value) =
      (if key.tid = tid then value.nanoseconds else 0) + nanosecondsOf tid (samples.erase key) := rfl

namespace Charged

variable {tid : UInt32} {samples : Table AttributedStack OffCpuValues} {w : ℕ} (h : Charged tid samples w)
include h

theorem erase (key : AttributedStack) : 0 ≤ nanosecondsOf tid (samples.erase key) := by
  refine List.sum_nonneg fun x hx => ?_
  obtain ⟨e, he, rfl⟩ := List.mem_map.mp hx
  obtain ⟨-, hl⟩ := Table.lookup_erase_eq_some.mp (Table.mem_entries.mp he)
  dsimp only
  split
  next ht => exact h.nonneg _ _ hl ht
  next => exact le_rfl

theorem insert_ne {key : AttributedStack} (hk : key.tid ≠ tid) (value : OffCpuValues) :
    Charged tid (samples.insert key value) w := by
  have herase : nanosecondsOf tid (samples.erase key) = w := by
    rw [← h.total]
    cases hl : samples.lookup key with
    | none => rw [Table.erase_of_notMem (Table.notMem_iff.mpr hl)]
    | some v =>
      unfold nanosecondsOf
      rw [Table.sumOver_erase _ hl, if_neg hk, zero_add]
  refine ⟨fun k v hl ht => ?_, by rw [nanosecondsOf_insert, if_neg hk, zero_add, herase]⟩
  rw [Table.lookup_insert, if_neg (fun e : k = key => hk (e ▸ ht))] at hl
  exact h.nonneg k v hl ht

theorem insert {key : AttributedStack} (hk : key.tid = tid) {value : OffCpuValues} {n : ℕ}
    (hv : value.nanoseconds = ((samples.lookup key).getD {}).nanoseconds + n) :
    Charged tid (samples.insert key value) (w + n) := by
  have hold : 0 ≤ ((samples.lookup key).getD {}).nanoseconds ∧
      ((samples.lookup key).getD {}).nanoseconds + nanosecondsOf tid (samples.erase key) = w := by
    cases hl : samples.lookup key with
    | none =>
      rw [Table.erase_of_notMem (Table.notMem_iff.mpr hl), h.total]
      exact ⟨le_rfl, zero_add _⟩
    | some v =>
      refine ⟨h.nonneg key v hl hk, ?_⟩
      rw [← h.total]
      unfold nanosecondsOf
      rw [Table.sumOver_erase _ hl, if_pos hk]
      rfl
  refine ⟨fun k v hl ht => ?_, ?_⟩
  · rcases Table.lookup_insert_eq_some.mp hl with ⟨-, rfl⟩ | ⟨-, hl⟩
    · have := hold.1
      omega
    · exact h.nonneg k v hl ht
  · rw [nanosecondsOf_insert, if_pos hk, hv]
    have := hold.2
    push_cast
    omega

theorem value_le (key : AttributedStack) (hk : key.tid = tid) :
    0 ≤ ((samples.lookup key).getD {}).nanoseconds ∧ ((samples.lookup key).getD {}).nanoseconds ≤ w := by
  have herase := h.erase key
  cases hl : samples.lookup key with
  | none => exact ⟨le_rfl, Int.natCast_nonneg w⟩
  | some v =>
    refine ⟨h.nonneg key v hl hk, ?_⟩
    rw [← h.total]
    unfold nanosecondsOf at herase ⊢
    rw [Table.sumOver_erase _ hl, if_pos hk]
    simpa using herase

end Charged

namespace OffCpuCollector

variable (self : OffCpuCollector) (comm : Comm) {pid tid : UInt32} {stack : Stack} {elapsed : ℕ} {completed : Bool}

/-- When nothing has been dropped, `aggregate` has found or made its entry. -/
theorem aggregate_kept (h : (self.aggregate comm pid tid stack elapsed completed).aggregationDroppedEvents = 0) :
    self.aggregationDroppedEvents = 0 ∧ ∃ key value, key.tid = tid ∧
      (self.aggregate comm pid tid stack elapsed completed).samples = self.samples.insert key value ∧
      value.nanoseconds =
        saturatingAddI64 ((self.samples.lookup key).getD {}).nanoseconds (saturatingI64 elapsed) := by
  revert h
  unfold aggregate
  extract_lets key add
  intro h
  cases ho : Capped.offer self.maxStacks {} add self.samples key with
  | none =>
    rw [ho] at h
    exact absurd h (saturatingAddU64_one_ne_zero _)
  | some samples =>
    rw [ho] at h
    refine ⟨h, key, add ((self.samples.lookup key).getD {}), rfl, ?_, rfl⟩
    unfold Capped.offer at ho
    split at ho
    · rename_i v hv
      cases ho
      rw [hv]
      rfl
    · rename_i hv
      split at ho
      · cases ho
        rw [hv]
        rfl
      · cases ho

theorem aggregate_charged {w : ℕ} (hc : Charged tid self.samples w) (hw : w + elapsed ≤ i64Max)
    (h : (self.aggregate comm pid tid stack elapsed completed).aggregationDroppedEvents = 0) :
    Charged tid (self.aggregate comm pid tid stack elapsed completed).samples (w + elapsed) := by
  obtain ⟨-, key, value, hk, hs, hv⟩ := self.aggregate_kept comm h
  rw [hs]
  refine hc.insert hk ?_
  have hle := hc.value_le key hk
  rw [hv, saturatingI64, if_pos (by omega)]
  unfold saturatingAddI64
  omega

theorem aggregate_charged_ne {t : UInt32} {w : ℕ} (hc : Charged t self.samples w) (ht : tid ≠ t)
    (h : (self.aggregate comm pid tid stack elapsed completed).aggregationDroppedEvents = 0) :
    Charged t (self.aggregate comm pid tid stack elapsed completed).samples w := by
  obtain ⟨-, key, value, hk, hs, -⟩ := self.aggregate_kept comm h
  rw [hs]
  exact hc.insert_ne (hk ▸ ht) value

theorem apply_dropped {event : SwitchEvent} (h : (self.apply comm event).aggregationDroppedEvents = 0) :
    self.aggregationDroppedEvents = 0 := by
  unfold apply applySwitchOut applySwitchIn at h
  dsimp only at h
  split at h
  · split at h <;> exact h
  · split at h
    · exact (aggregate_kept _ comm h).1
    · exact h

theorem foldl_apply_dropped : ∀ (events : List SwitchEvent) (c : OffCpuCollector),
    (events.foldl (apply · comm) c).aggregationDroppedEvents = 0 → c.aggregationDroppedEvents = 0
  | [], _, h => h
  | _ :: events, _, h => apply_dropped _ comm (foldl_apply_dropped events _ h)

theorem apply_charged_ne {event : SwitchEvent} {t : UInt32} {w : ℕ} (hc : Charged t self.samples w)
    (ht : event.tid ≠ t) (h : (self.apply comm event).aggregationDroppedEvents = 0) :
    Charged t (self.apply comm event).samples w := by
  unfold apply applySwitchOut applySwitchIn at h ⊢
  dsimp only at h ⊢
  split at h
  · split <;> exact hc
  · split at h
    · exact aggregate_charged_ne _ comm hc ht h
    · exact hc

theorem chargePending_dropped {boundary : ℕ} : ∀ (l : List (Σ _ : UInt32, PendingInterval)) (c : OffCpuCollector),
    (l.foldl (chargePending · comm boundary) c).aggregationDroppedEvents = 0 → c.aggregationDroppedEvents = 0
  | [], _, h => h
  | _ :: l, _, h => (aggregate_kept _ comm (chargePending_dropped l _ h)).1

theorem split_loop {t : UInt32} {boundary : ℕ} : ∀ (l : List (Σ _ : UInt32, PendingInterval)) {c : OffCpuCollector}
    {w : ℕ}, Charged t c.samples w →
    w + ((l.filter (·.1 = t)).map fun e => boundary - e.2.started).sum ≤ i64Max →
    (l.foldl (chargePending · comm boundary) c).aggregationDroppedEvents = 0 →
    Charged t (l.foldl (chargePending · comm boundary) c).samples
      (w + ((l.filter (·.1 = t)).map fun e => boundary - e.2.started).sum)
  | [], _, _, hc, _, _ => hc
  | e :: l, c, w, hc, hw, h => by
    have hd : (c.chargePending comm boundary e).aggregationDroppedEvents = 0 := chargePending_dropped comm l _ h
    rw [List.foldl_cons] at h ⊢
    by_cases ht : e.1 = t
    · rw [List.filter_cons_of_pos (by simpa using ht), List.map_cons, List.sum_cons, ← Nat.add_assoc] at hw ⊢
      subst ht
      exact split_loop l (aggregate_charged _ comm hc (by omega) hd) hw h
    · rw [List.filter_cons_of_neg (by simpa using ht)] at hw ⊢
      exact split_loop l (aggregate_charged_ne _ comm hc ht hd) hw h

theorem splitPending_dropped {boundary : ℕ} {iter : IterOrder}
    (h : (self.splitPending comm boundary iter).aggregationDroppedEvents = 0) : self.aggregationDroppedEvents = 0 := by
  have hd := chargePending_dropped comm _ _ h
  exact hd

theorem splitPending_charged {t : UInt32} {boundary w : ℕ} {iter : IterOrder} (hc : Charged t self.samples w)
    (hw : w + ((self.pending.lookup t).map fun interval => boundary - interval.started).getD 0 ≤ i64Max)
    (h : (self.splitPending comm boundary iter).aggregationDroppedEvents = 0) :
    Charged t (self.splitPending comm boundary iter).samples
      (w + ((self.pending.lookup t).map fun interval => boundary - interval.started).getD 0) := by
  have hsum : (((iter.order self.pending.entries).filter (·.1 = t)).map fun e => boundary - e.2.started).sum =
      ((self.pending.lookup t).map fun interval => boundary - interval.started).getD 0 := by
    rw [Table.filter_order]
    cases self.pending.lookup t <;> simp
  rw [← hsum] at hw ⊢
  unfold splitPending at h ⊢
  dsimp only at h ⊢
  exact split_loop comm _ hc hw h

end OffCpuCollector

/-! ## The collector meters a thread -/

structure Meters (tid : UInt32) (collector : OffCpuCollector) (m : Meter) : Prop where
  pending : (collector.pending.lookup tid).map (·.started) = m.running
  charged : Charged tid collector.samples m.window

def Bounded (l : List Tick) : Prop := ∀ tick ∈ l, tick.time ≤ i64Max

theorem Bounded.left {l l' : List Tick} (h : Bounded (l ++ l')) : Bounded l :=
  fun a ha => h a (List.mem_append_left _ ha)

theorem busy_of_running {l : List Tick} (h : WellTimed l) {s' : ℕ} (hr : (Meter.read l).running = some s') :
    ∃ s excess, Meter.Busy l (Meter.read l) (Elapsed.read l) s s' excess := by
  obtain ⟨excess, -, hi | ⟨s, t, hb⟩⟩ := Meter.metered h
  · rw [hi.running] at hr
    cases hr
  · have : t = s' := Option.some.inj (hb.running.symm.trans hr)
    exact ⟨s, excess, this ▸ hb⟩

namespace Meters

variable {tid : UInt32} {collector : OffCpuCollector} {l : List Tick} (h : Meters tid collector (Meter.read l))
include h

theorem apply_switchIn (comm : Comm) {event : SwitchEvent} (ht : event.tid = tid)
    (hl : WellTimed (l ++ [.stop event.timestamp])) (hb : event.timestamp ≤ i64Max)
    (hd : (collector.applySwitchIn comm event).aggregationDroppedEvents = 0) :
    Meters tid (collector.applySwitchIn comm event) (Meter.read (l ++ [.stop event.timestamp])) := by
  subst ht
  have hp := h.pending
  rw [Meter.read_snoc]
  unfold OffCpuCollector.applySwitchIn at hd ⊢
  dsimp only at hd ⊢
  cases hpen : collector.pending.lookup event.tid with
  | none =>
    rw [hpen] at hp
    rw [Meter.tick_stop_idle _ hp.symm]
    exact h
  | some interval =>
    rw [hpen] at hp hd
    obtain ⟨s, excess, hbusy⟩ := busy_of_running hl.init hp.symm
    rw [Meter.tick_stop _ hp.symm]
    refine ⟨?_, ?_⟩
    · dsimp only
      rw [(OffCpuCollector.aggregate_frame ..).1, Table.lookup_erase, if_pos rfl]
      rfl
    · exact OffCpuCollector.aggregate_charged _ comm h.charged ((hbusy.stop_le hl).trans hb) hd

theorem apply (comm : Comm) {event : SwitchEvent}
    (hf : event.tid = tid → event.kind = .switchOut → event.frames ≠ [])
    (hl : WellTimed (l ++ (LogEntry.tick tid (.switched event)).toList))
    (hb : Bounded (l ++ (LogEntry.tick tid (.switched event)).toList))
    (hd : (collector.apply comm event).aggregationDroppedEvents = 0) :
    Meters tid (collector.apply comm event) (Meter.read (l ++ (LogEntry.tick tid (.switched event)).toList)) := by
  unfold LogEntry.tick SwitchEvent.tick at hl hb ⊢
  by_cases ht : event.tid = tid
  · simp only [ht, ite_true, Option.toList_some] at hl hb ⊢
    unfold OffCpuCollector.apply at hd ⊢
    cases hk : event.kind with
    | switchOut =>
      rw [Meter.read_snoc, Meter.tick_start]
      unfold OffCpuCollector.applySwitchOut
      rw [if_neg (hf ht hk)]
      refine ⟨?_, h.charged⟩
      dsimp only
      rw [ht, Table.lookup_insert, if_pos rfl, Option.map_some]
    | switchIn =>
      rw [hk] at hl hb hd
      exact h.apply_switchIn comm ht hl (hb (.stop event.timestamp) (by simp)) hd
  · simp only [ht, ite_false, Option.toList_none, List.append_nil]
    refine ⟨?_, collector.apply_charged_ne comm h.charged ht hd⟩
    rw [OffCpuCollector.apply_pending, if_neg ht]
    exact h.pending

theorem foldl_apply (comm : Comm) (events : List SwitchEvent)
    (hf : ∀ event ∈ events, event.tid = tid → event.kind = .switchOut → event.frames ≠ [])
    (hl : WellTimed (l ++ ticks tid (events.map .switched))) (hb : Bounded (l ++ ticks tid (events.map .switched)))
    (hd : (events.foldl (OffCpuCollector.apply · comm) collector).aggregationDroppedEvents = 0) :
    Meters tid (events.foldl (OffCpuCollector.apply · comm) collector)
      (Meter.read (l ++ ticks tid (events.map .switched))) := by
  induction events using List.reverseRecOn with
  | nil => simpa [ticks] using h
  | append_singleton events event ih =>
    have hsnoc : l ++ ticks tid ((events ++ [event]).map .switched) =
        (l ++ ticks tid (events.map .switched)) ++ (LogEntry.tick tid (.switched event)).toList := by
      rw [List.map_append, ticks_append, List.append_assoc]
      congr 2
    rw [hsnoc] at hl hb ⊢
    rw [List.foldl_append, List.foldl_cons, List.foldl_nil] at hd ⊢
    have hm := ih (fun e he => hf e (List.mem_append_left _ he)) hl.left hb.left
      (OffCpuCollector.apply_dropped _ comm hd)
    exact hm.apply comm (hf event (by simp)) hl hb hd

theorem splitPending (comm : Comm) {boundary : ℕ} {iter : IterOrder} (hl : WellTimed (l ++ [.cut boundary]))
    (hb : Bounded (l ++ [.cut boundary]))
    (hd : (collector.splitPending comm boundary iter).aggregationDroppedEvents = 0) :
    ((collector.splitPending comm boundary iter).pending.lookup tid).map (·.started) =
      (Meter.read (l ++ [.cut boundary])).running ∧
    ((Meter.read l).closed : ℤ) + nanosecondsOf tid (collector.splitPending comm boundary iter).samples =
      (Meter.read (l ++ [.cut boundary])).closed := by
  have hp := h.pending
  rw [(collector.splitPending_frame comm boundary iter).2.2, Meter.read_snoc]
  have hsplit := fun hw => collector.splitPending_charged comm h.charged hw hd
  cases hpen : collector.pending.lookup tid with
  | none =>
    rw [hpen] at hp hsplit
    rw [Meter.tick_cut_idle _ hp.symm]
    have hc := hsplit (Meter.window_le hl.init hb.left)
    refine ⟨rfl, ?_⟩
    rw [hc.total]
    push_cast
    simp
  | some interval =>
    rw [hpen] at hp hsplit
    -- The window with this part in it is no longer than the boundary's own time, which is bounded.
    obtain ⟨s, excess, hbusy⟩ := busy_of_running hl.init hp.symm
    have hc := hsplit ((hbusy.cut_le hl).trans (hb (.cut boundary) (by simp)))
    rw [Meter.tick_cut _ hp.symm]
    refine ⟨rfl, ?_⟩
    rw [hc.total]
    push_cast
    rfl

end Meters

/-! ## Runs -/

def NoDrop (r : OffCpuRecording) : Prop :=
  r.sys.collector.aggregationDroppedEvents = 0 ∧ ∀ w ∈ r.windows, w.2.aggregationDroppedEvents = 0

def charged (tid : UInt32) (r : OffCpuRecording) : ℤ := (r.windows.map fun w => nanosecondsOf tid w.1).sum

structure Recorded (tid : UInt32) (r : OffCpuRecording) : Prop where
  receiver : r.sys.collector.receiver = []
  tracked : ∀ t, r.sys.kernel.trackedTids.lookup t = r.sys.collector.trackedTids.lookup t
  frames : ∀ event ∈ r.sys.kernel.events, event.tid = tid → event.kind = .switchOut → event.frames ≠ []
  meters : WellTimed (ticks tid r.log) → Bounded (ticks tid r.log) → NoDrop r →
    Meters tid r.sys.collector (Meter.read (ticks tid r.log)) ∧ charged tid r = (Meter.read (ticks tid r.log)).closed

theorem frames_ne_nil {event : SwitchEvent} (hlen : event.stackLen = 8 * event.ips.length)
    (h : ∃ ip ∈ event.ips.take 127, ip ≠ 0) : event.frames ≠ [] := by
  obtain ⟨ip, hip, hne⟩ := h
  have htake : event.ips.take (min (event.stackLen.toNat / 8) 127) = event.ips.take 127 := by
    rw [hlen, show (8 * (event.ips.length : ℤ)).toNat / 8 = event.ips.length by omega]
    rcases Nat.le_total event.ips.length 127 with hl | hl
    · rw [Nat.min_eq_left hl, List.take_length, List.take_of_length_le hl]
    · rw [Nat.min_eq_right hl]
  unfold SwitchEvent.frames
  rw [htake]
  exact List.ne_nil_of_mem (List.mem_filter.mpr ⟨hip, by simpa using hne⟩)

namespace Recorded

variable {tid : UInt32} {r : OffCpuRecording} (h : Recorded tid r)
include h

theorem schedSwitch {hit : SwitchHit} (ha : Lossless tid r (.schedSwitch hit)) :
    Recorded tid { r with sys := { r.sys with kernel := r.sys.kernel.schedSwitch hit } } := by
  obtain ⟨new, hnew⟩ := r.sys.kernel.schedSwitch_emits hit
  refine ⟨h.receiver, fun t => ?_, fun event he ht hk => ?_, h.meters⟩
  · dsimp only
    rw [hnew.trackedTids, h.tracked]
  · dsimp only at he
    rw [hnew.events, List.mem_append] at he
    rcases he with he | he
    · exact h.frames event he ht hk
    · obtain ⟨hp, hips, hlen⟩ := hnew.stack event he hk
      exact frames_ne_nil hlen (hips ▸ ha (hp ▸ ht))

theorem applyThreads {current : Table UInt32 UInt32} {iter : IterOrder} {kernel : OffCpuBpf}
    {collector : OffCpuCollector} (ha : Lossless tid r (.applyThreads current iter))
    (hok : r.sys.collector.applyThreads r.sys.kernel current iter = .ok (kernel, collector)) :
    Recorded tid { r with sys := ⟨kernel, collector⟩ } := by
  have hr := r.sys.collector.applyThreads_reconciled h.tracked hok
  refine ⟨hr.receiver.trans h.receiver, fun t => by rw [hr.tracked, hr.trackedTids], hr.events ▸ h.frames,
    fun hl hb hd => ?_⟩
  obtain ⟨hm, hc⟩ := h.meters hl hb ⟨hr.aggregationDropped ▸ hd.1, hd.2⟩
  refine ⟨⟨?_, by rw [hr.samples]; exact hm.charged⟩, hc⟩
  rw [hr.pending, ← hm.pending]
  split
  · rename_i hgone
    rw [Table.notMem_iff.mp (ha.resolve_left hgone.2)]
  · rfl

theorem drained (comm : Comm) (ha : r.sys.kernel.events.length ≤ offCpuQueueCapacity)
    (hl : WellTimed (ticks tid (r.log ++ r.sys.kernel.events.map .switched)))
    (hb : Bounded (ticks tid (r.log ++ r.sys.kernel.events.map .switched)))
    (hd : (r.sys.collector.drain comm r.sys.kernel).1.aggregationDroppedEvents = 0)
    (hw : ∀ w ∈ r.windows, w.2.aggregationDroppedEvents = 0) :
    Meters tid (r.sys.collector.drain comm r.sys.kernel).1
      (Meter.read (ticks tid (r.log ++ r.sys.kernel.events.map .switched))) ∧
    charged tid r = (Meter.read (ticks tid (r.log ++ r.sys.kernel.events.map .switched))).closed := by
  obtain ⟨drops, hdr⟩ := r.sys.collector.drain_eq comm r.sys.kernel h.receiver
  rw [hdr, List.take_of_length_le ha] at hd
  rw [hdr, List.take_of_length_le ha]
  rw [ticks_append] at hl hb ⊢
  have hd' := OffCpuCollector.foldl_apply_dropped comm _ _ hd
  obtain ⟨hm, hc⟩ := h.meters hl.left hb.left ⟨hd', hw⟩
  have hm' : Meters tid { r.sys.collector with userspaceDrops := r.sys.collector.userspaceDrops + drops }
      (Meter.read (ticks tid r.log)) := ⟨hm.pending, hm.charged⟩
  refine ⟨hm'.foldl_apply comm _ h.frames hl hb hd, hc.trans ?_⟩
  unfold Meter.read
  rw [List.foldl_append, Meter.closed_foldl _ _ (ticks_switched tid _)]

theorem drain (comm : Comm) (ha : Lossless tid r (.drain comm)) :
    Recorded tid { r with
      sys := ⟨(r.sys.collector.drain comm r.sys.kernel).2, (r.sys.collector.drain comm r.sys.kernel).1⟩
      log := r.log ++ r.sys.kernel.events.map .switched } := by
  have hdrained := h.drained comm ha
  obtain ⟨drops, hdr⟩ := r.sys.collector.drain_eq comm r.sys.kernel h.receiver
  obtain ⟨htr, hre⟩ := OffCpuCollector.foldl_apply_frame
    { r.sys.collector with userspaceDrops := r.sys.collector.userspaceDrops + drops } comm
    (r.sys.kernel.events.take offCpuQueueCapacity)
  refine ⟨?_, fun t => ?_, ?_, fun hl hb hd => hdrained hl hb hd.1 hd.2⟩
  · rw [hdr]
    exact hre.trans h.receiver
  · rw [hdr]
    exact (h.tracked t).trans (congrArg (AList.lookup t) htr.symm)
  · rw [hdr]
    exact fun _ he => absurd he List.not_mem_nil

theorem snapshotWindow {comm : Comm} {boundary : ℕ} {iter : IterOrder}
    (ha : Lossless tid r (.snapshotWindow comm boundary iter)) :
    Recorded tid {
      sys := ⟨(r.sys.collector.snapshotWindow comm r.sys.kernel boundary iter).2.2,
        (r.sys.collector.snapshotWindow comm r.sys.kernel boundary iter).2.1⟩
      windows := r.windows ++ [r.sys.window comm boundary iter]
      log := r.log ++ (r.sys.kernel.events.map .switched ++ [.boundary boundary]) } := by
  have hdrain := h.drain comm ha
  have hdrained := h.drained comm ha
  obtain ⟨htr, hre, hp⟩ := (r.sys.collector.drain comm r.sys.kernel).1.splitPending_frame comm boundary iter
  refine ⟨hre.trans hdrain.receiver, fun t => (hdrain.tracked t).trans (congrArg (AList.lookup t) htr.symm),
    hdrain.frames, fun hl hb hd => ?_⟩
  have hcut : ticks tid (r.log ++ (r.sys.kernel.events.map .switched ++ [.boundary boundary])) =
      ticks tid (r.log ++ r.sys.kernel.events.map .switched) ++ [.cut boundary] := by
    rw [← List.append_assoc, ticks_append]
    rfl
  dsimp only at hl hb ⊢
  rw [hcut] at hl hb ⊢
  have hlast : (r.windows ++ [r.sys.window comm boundary iter]).map (fun w => nanosecondsOf tid w.1) =
      r.windows.map (fun w => nanosecondsOf tid w.1) ++ [nanosecondsOf tid (r.sys.window comm boundary iter).1] := by
    rw [List.map_append, List.map_singleton]
  have hd' : ((r.sys.collector.drain comm r.sys.kernel).1.splitPending comm boundary
      iter).aggregationDroppedEvents = 0 := hd.2 (r.sys.window comm boundary iter) (by simp)
  obtain ⟨hm, hc⟩ := hdrained hl.init hb.left (OffCpuCollector.splitPending_dropped _ comm hd')
    fun w hw => hd.2 w (List.mem_append_left _ hw)
  obtain ⟨hpen, hns⟩ := hm.splitPending comm hl hb hd'
  refine ⟨⟨hpen, ?_⟩, ?_⟩
  · rw [Meter.read_snoc, Meter.window_tick_cut]
    exact ⟨fun key value hl => (by cases hl), rfl⟩
  · unfold charged at hc ⊢
    dsimp only
    rw [hlast, List.sum_append, List.sum_singleton, hc]
    exact hns

theorem step {a : OffCpuStep} {r' : OffCpuRecording} (ha : Lossless tid r a) (hs : r.step a = some r') :
    Recorded tid r' := by
  obtain ⟨sys, hsys, rfl⟩ := Option.map_eq_some_iff.mp hs
  cases a with
  | schedSwitch hit =>
    cases hsys
    exact h.schedSwitch ha
  | applyThreads current iter =>
    simp only [OffCpuSystem.step] at hsys
    split at hsys
    · rename_i kernel collector hok
      cases hsys
      exact h.applyThreads ha hok
    · cases hsys
  | drain comm =>
    cases hsys
    exact h.drain comm ha
  | snapshotWindow comm boundary iter =>
    cases hsys
    exact h.snapshotWindow ha

end Recorded

theorem attach_recorded {current : Table UInt32 UInt32} {iter : IterOrder} {maxStacks maxThreads : ℕ}
    {kernel : OffCpuBpf} {collector : OffCpuCollector}
    (h : OffCpuCollector.attach current iter maxStacks maxThreads = .ok (kernel, collector)) (tid : UInt32) :
    Recorded tid (.start kernel collector) := by
  obtain ⟨tracking, ha, rfl⟩ := OffCpuCollector.attach_ok h
  have hr := OffCpuCollector.applyThreads_reconciled _ (fun _ => rfl) ha
  refine ⟨hr.receiver, fun t => by rw [OffCpuRecording.start, hr.tracked, hr.trackedTids], ?_,
    fun _ _ _ => ⟨⟨?_, ?_⟩, rfl⟩⟩
  · exact fun event he => absurd (hr.events ▸ he) List.not_mem_nil
  · exact (congrArg (Option.map _) (hr.pending tid)).trans (by split <;> rfl)
  · have hempty : tracking.samples = ∅ := hr.samples
    refine ⟨fun key value hl => ?_, congrArg (nanosecondsOf tid) hempty⟩
    change tracking.samples.lookup key = some value at hl
    rw [hempty] at hl
    cases hl

/-- **Off-CPU time is conserved.** Over a lossless run that ends with a snapshot,
the windows charge a thread its off-CPU time exactly when every switch-in was
drained before a boundary later than it was read. -/
theorem windows_conserve_time {current : Table UInt32 UInt32} {iter : IterOrder} {maxStacks maxThreads : ℕ}
    {kernel : OffCpuBpf} {collector : OffCpuCollector}
    (hattach : OffCpuCollector.attach current iter maxStacks maxThreads = .ok (kernel, collector))
    {tid : UInt32} {as : List OffCpuStep} {comm : Comm} {boundary : ℕ} {last : IterOrder} {r : OffCpuRecording}
    (hloss : Guarded OffCpuRecording.step (Lossless tid) (.start kernel collector)
      (as ++ [.snapshotWindow comm boundary last]))
    (hrun : run OffCpuRecording.step (.start kernel collector) (as ++ [.snapshotWindow comm boundary last]) = some r)
    (hdrop : ∀ w ∈ r.windows, w.2.aggregationDroppedEvents = 0)
    (htimed : WellTimed (ticks tid r.log)) (hclock : Bounded (ticks tid r.log)) :
    charged tid r = (Elapsed.read (ticks tid r.log)).atTime boundary ↔ Timely none (ticks tid r.log) := by
  have hrec : Recorded tid r := run_inv OffCpuRecording.step (fun s a t h ha hs => Recorded.step h ha hs)
    (attach_recorded hattach tid) hloss hrun
  obtain ⟨before, -, hlast⟩ := run_snoc OffCpuRecording.step hrun
  obtain ⟨sys, hsys, hr⟩ := Option.map_eq_some_iff.mp hlast
  have hlog : ticks tid r.log =
      ticks tid (before.log ++ before.sys.kernel.events.map .switched) ++ [.cut boundary] := by
    rw [← hr]
    dsimp only
    rw [← List.append_assoc, ticks_append]
    rfl
  have hzero : r.sys.collector.aggregationDroppedEvents = 0 := by
    cases hsys
    rw [← hr]
  rw [(hrec.meters htimed hclock ⟨hzero, hdrop⟩).2, Nat.cast_inj]
  rw [hlog] at htimed ⊢
  exact Meter.closed_eq_elapsed_iff htimed

/-! ## One interval, two windows -/

/-- Thread 7 is switched out at 100 and in at `time`; the switch-in is drained after the boundary 200. -/
def splitInterval (time : ℕ) : List OffCpuStep :=
  [.schedSwitch { prevTid := 7, nextTid := 0, outTimestamp := 100, inTimestamp := 100, stack := some [0x400000] },
    .snapshotWindow (fun _ _ => none) 200 .stored,
    .schedSwitch { prevTid := 0, nextTid := 7, outTimestamp := time, inTimestamp := time }]

def closingSnapshot : OffCpuStep := .snapshotWindow (fun _ _ => none) 300 .stored

def thread7 : Table UInt32 UInt32 := (∅ : Table UInt32 UInt32).insert 7 1

def tracking7 : OffCpuBpf × OffCpuCollector :=
  ({ OffCpuBpf.loaded with trackedTids := thread7 }, { OffCpuCollector.new 10 10 with trackedTids := thread7 })

theorem splitInterval_lossless (time : ℕ) :
    Guarded OffCpuRecording.step (Lossless 7) (.start tracking7.1 tracking7.2)
      (splitInterval time ++ [closingSnapshot]) := by
  refine guarded_cons _ (fun _ => ⟨0x400000, by simp, by decide⟩) rfl (guarded_cons _ ?_ rfl ?_)
  · exact (by decide : 1 ≤ 4096)
  · refine guarded_cons _ (fun h => absurd h (by decide : (0 : UInt32) ≠ 7)) rfl (guarded_cons _ ?_ rfl trivial)
    exact (by decide : 1 ≤ 4096)

theorem windows_conserve_time_splitInterval : ∃ r,
    run OffCpuRecording.step (.start tracking7.1 tracking7.2) (splitInterval 250 ++ [closingSnapshot]) = some r ∧
    (charged 7 r = (Elapsed.read (ticks 7 r.log)).atTime 300 ↔ Timely none (ticks 7 r.log)) := by
  refine ⟨_, rfl, @windows_conserve_time thread7 .stored 10 10 _ _ rfl 7 (splitInterval 250) _ 300 _ _
    (splitInterval_lossless 250) rfl ?_ ?_ ?_⟩
  · exact List.forall_mem_cons.mpr ⟨rfl, List.forall_mem_singleton.mpr rfl⟩
  · exact ⟨by decide, by decide⟩
  · exact (by decide : ∀ a ∈ [Tick.start 100, .cut 200, .stop 250, .cut 300], a.time ≤ i64Max)

/-- A switch-in at 150 that is drained after the boundary 200 leaves an interval
of 50 charged 100. -/
theorem lateSwitchIn_overcharged : ∃ r,
    Guarded OffCpuRecording.step (Lossless 7) (.start tracking7.1 tracking7.2)
      (splitInterval 150 ++ [closingSnapshot]) ∧
    run OffCpuRecording.step (.start tracking7.1 tracking7.2) (splitInterval 150 ++ [closingSnapshot]) = some r ∧
    (∀ w ∈ r.windows, w.2.aggregationDroppedEvents = 0) ∧ WellTimed (ticks 7 r.log) ∧
    charged 7 r = 100 ∧ (Elapsed.read (ticks 7 r.log)).atTime 300 = 50 :=
  ⟨_, splitInterval_lossless 150, rfl, List.forall_mem_cons.mpr ⟨rfl, List.forall_mem_singleton.mpr rfl⟩,
    ⟨by decide, by decide⟩, rfl, rfl⟩

end RustProfile
