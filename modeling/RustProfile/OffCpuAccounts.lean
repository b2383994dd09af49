import RustProfile.OffCpuBalance
import RustProfile.OffCpuTime

/-!
# The accounts of a recording

`OffCpuAccounts` runs the system and keeps, beside it, which switch-outs have
been counted incomplete and what every window has reported.
-/

namespace RustProfile

open Run OffCpuCollector

/-! ## Which switch-outs are counted -/

/-- Events have numbers, in the order the kernel emits them. `owner` has the switch-out of each pending interval. -/
structure SwitchLedger where
  emitted : ℕ := 0
  owner : Table UInt32 ℕ := ∅
  counted : List ℕ := []

namespace SwitchLedger

variable (self : SwitchLedger)

/-- The collector applies the event with number `id`. -/
def apply (id : ℕ) (event : SwitchEvent) : SwitchLedger :=
  match event.kind with
  | .switchOut =>
    if event.frames = [] then { self with counted := self.counted ++ [id] }
    else { self with
      owner := self.owner.insert event.tid id
      counted := self.counted ++ (self.owner.lookup event.tid).toList }
  | .switchIn => { self with owner := self.owner.erase event.tid }

def applyAll (self : SwitchLedger) (id : ℕ) : List SwitchEvent → SwitchLedger
  | [] => self
  | event :: events => (self.apply id event).applyAll (id + 1) events

def dropThread (tid : UInt32) : SwitchLedger :=
  { self with owner := self.owner.erase tid, counted := self.counted ++ (self.owner.lookup tid).toList }

/-- The kernel counts a switch-out whose stack cannot be read. -/
def schedSwitch (kernel : OffCpuBpf) (hit : SwitchHit) : SwitchLedger :=
  { self with
    emitted := self.emitted + ((kernel.schedSwitch hit).events.length - kernel.events.length)
    counted := self.counted ++ if kernel.stackFails hit then [self.emitted] else [] }

/-- The number of the first event in the ring. -/
def applied (kernel : OffCpuBpf) : ℕ := self.emitted - kernel.events.length

def drain (kernel : OffCpuBpf) : SwitchLedger :=
  self.applyAll (self.applied kernel) (kernel.events.take offCpuQueueCapacity)

end SwitchLedger

/-! ## What the windows report -/

structure WindowAccount where
  before : ℕ
  after : ℕ
  stackFailures : ℕ
  diagnostics : OffCpuWindowDiagnostics

/-- The switch-outs are the intervals completed, those incomplete and what the pending ones have grown by. -/
def WindowAccount.Balanced (window : WindowAccount) : Prop :=
  (window.diagnostics.switchOutEvents : ℤ) = window.diagnostics.completedIntervals +
    window.diagnostics.incompleteIntervals + ((window.after : ℤ) - window.before)

structure OffCpuAccounts where
  sys : OffCpuSystem
  before : ℕ
  windows : List WindowAccount
  ledger : SwitchLedger

namespace OffCpuAccounts

def start (kernel : OffCpuBpf) (collector : OffCpuCollector) : OffCpuAccounts :=
  ⟨⟨kernel, collector⟩, 0, [], {}⟩

def step (a : OffCpuAccounts) (action : OffCpuStep) : Option OffCpuAccounts :=
  (a.sys.step action).map fun sys => match action with
    | .schedSwitch hit => { a with sys := sys, ledger := a.ledger.schedSwitch a.sys.kernel hit }
    | .applyThreads current iter =>
      let left := iter.order (a.sys.collector.trackedTids.keys.filter (· ∉ current))
      { a with sys := sys, ledger := left.foldl SwitchLedger.dropThread a.ledger }
    | .drain _ => { a with sys := sys, ledger := a.ledger.drain a.sys.kernel }
    | .snapshotWindow comm boundary iter =>
      let window : WindowAccount :=
        { before := a.before
          after := sys.collector.pending.size
          stackFailures := a.sys.kernel.stats.stackFailures - a.sys.collector.previousStats.stackFailures
          diagnostics := (a.sys.window comm boundary iter).2 }
      { sys := sys
        before := sys.collector.pending.size
        windows := a.windows ++ [window]
        ledger := a.ledger.drain a.sys.kernel }

def StacksRead (a : OffCpuAccounts) : OffCpuStep → Prop
  | .schedSwitch hit => a.sys.kernel.stackFails hit = false
  | _ => True

end OffCpuAccounts

/-! ## Every window -/

structure InBalance (a : OffCpuAccounts) : Prop where
  receiver : a.sys.collector.receiver = []
  balance : a.sys.collector.Balance a.before
  emitted : a.sys.collector.switchOutEvents + a.before + a.sys.kernel.events.length ≤ a.ledger.emitted
  failures : a.sys.collector.previousStats.stackFailures ≤ a.sys.kernel.stats.stackFailures
  windows : ∀ window ∈ a.windows, window.Balanced ↔ window.stackFailures = 0

section
variable {a : OffCpuAccounts}

theorem ledger_drop_emitted (l : List UInt32) (ledger : SwitchLedger) :
    (l.foldl SwitchLedger.dropThread ledger).emitted = ledger.emitted :=
  @foldl_frame _ _ _ SwitchLedger.emitted SwitchLedger.dropThread (fun _ _ => rfl) l ledger

theorem ledger_apply_emitted (ledger : SwitchLedger) (id : ℕ) (event : SwitchEvent) :
    (ledger.apply id event).emitted = ledger.emitted := by
  unfold SwitchLedger.apply
  cases event.kind with
  | switchOut =>
    dsimp only
    split <;> rfl
  | switchIn => rfl

theorem ledger_applyAll_emitted : ∀ (events : List SwitchEvent) (ledger : SwitchLedger) (id : ℕ),
    (ledger.applyAll id events).emitted = ledger.emitted
  | [], _, _ => rfl
  | event :: events, ledger, id =>
    (ledger_applyAll_emitted events _ _).trans (ledger_apply_emitted ledger id event)

theorem InBalance.drained (h : InBalance a) (comm : Comm) (hroom : a.ledger.emitted < u64Max) :
    ∃ collector, a.sys.collector.drain comm a.sys.kernel = (collector, { a.sys.kernel with events := [] }) ∧
      collector.receiver = [] ∧ collector.Balance a.before ∧
      collector.switchOutEvents + a.before ≤ a.ledger.emitted ∧
      collector.previousStats = a.sys.collector.previousStats := by
  obtain ⟨taking, hd, hreceiver, -, hprevious, hout, -, hb⟩ :=
    @drain_taking a.sys.collector comm a.before a.sys.kernel h.receiver
  have hemitted := h.emitted
  have htake := List.length_take_le' offCpuQueueCapacity a.sys.kernel.events
  obtain ⟨hb', hout'⟩ := foldl_apply_balance comm (a.sys.kernel.events.take offCpuQueueCapacity) (hb h.balance)
    (by omega)
  refine ⟨_, hd, ?_, hb', by omega, ?_⟩
  · rw [(foldl_apply_frame _ comm _).2]
    exact hreceiver
  · rw [foldl_frame previousStats (fun s e => apply_previousStats comm s e)]
    exact hprevious

theorem InBalance.schedSwitch (h : InBalance a) (hit : SwitchHit) :
    InBalance { a with
      sys := { a.sys with kernel := a.sys.kernel.schedSwitch hit }
      ledger := a.ledger.schedSwitch a.sys.kernel hit } := by
  obtain ⟨new, hnew⟩ := a.sys.kernel.schedSwitch_emits hit
  refine ⟨h.receiver, h.balance, ?_, ?_, h.windows⟩
  · have hemitted := h.emitted
    unfold SwitchLedger.schedSwitch
    dsimp only
    rw [hnew.events, List.length_append]
    omega
  · dsimp only
    rw [OffCpuBpf.schedSwitch_failures]
    exact Nat.le_add_right_of_le h.failures

theorem InBalance.applyThreads (h : InBalance a) (hroom : a.ledger.emitted < u64Max) {current : Table UInt32 UInt32}
    {iter : IterOrder} {kernel : OffCpuBpf} {collector : OffCpuCollector} {ledger : SwitchLedger}
    (hs : a.sys.collector.applyThreads a.sys.kernel current iter = .ok (kernel, collector))
    (hl : ledger.emitted = a.ledger.emitted) :
    InBalance { a with sys := ⟨kernel, collector⟩, ledger := ledger } := by
  obtain ⟨mid, hevents, hstats, final, hfinal, rfl, rfl⟩ := applyThreads_drops hs
  have hemitted := h.emitted
  obtain ⟨hb, hout⟩ := drop_balance (iter.order (a.sys.collector.trackedTids.keys.filter (· ∉ current)))
    (show (mid, a.sys.collector).2.Balance a.before from h.balance) (by dsimp only; omega)
  have hdropped := drop_loop (iter.order (a.sys.collector.trackedTids.keys.filter (· ∉ current))) (mid, a.sys.collector)
  have hprevious : final.2.previousStats = a.sys.collector.previousStats := by
    rw [hfinal]
    exact @foldl_frame _ _ _ (fun state : OffCpuBpf × OffCpuCollector => state.2.previousStats) _
      (fun s tid => dropThread_previousStats s.2 s.1 tid) _ _
  rw [← hfinal] at hb hout hdropped
  refine ⟨hdropped.receiver.trans h.receiver, hb, ?_, ?_, h.windows⟩
  · change final.2.switchOutEvents + a.before + final.1.events.length ≤ ledger.emitted
    rw [hdropped.events, hl, hout]
    change a.sys.collector.switchOutEvents + a.before + mid.events.length ≤ _
    rw [hevents]
    exact hemitted
  · change final.2.previousStats.stackFailures ≤ final.1.stats.stackFailures
    rw [hprevious, hdropped.stats]
    change _ ≤ mid.stats.stackFailures
    rw [hstats]
    exact h.failures

/-- The kernel's count is what throws a window off balance. -/
theorem window_balanced_iff {collector : OffCpuCollector} {before failures : ℕ} (h : collector.Balance before)
    (hroom : collector.switchOutEvents + before < u64Max) :
    (collector.switchOutEvents : ℤ) = collector.completedIntervals +
        saturatingAddU64 collector.incompleteIntervals failures + ((collector.pending.size : ℤ) - before) ↔
      failures = 0 := by
  unfold OffCpuCollector.Balance at h
  unfold saturatingAddU64 Sat.add
  omega

theorem step_applyThreads {current : Table UInt32 UInt32} {iter : IterOrder} {a' : OffCpuAccounts}
    (hs : a.step (.applyThreads current iter) = some a') : ∃ kernel collector,
    a.sys.collector.applyThreads a.sys.kernel current iter = .ok (kernel, collector) ∧
    a' = { a with
      sys := ⟨kernel, collector⟩
      ledger := (iter.order (a.sys.collector.trackedTids.keys.filter (· ∉ current))).foldl
        SwitchLedger.dropThread a.ledger } := by
  unfold OffCpuAccounts.step OffCpuSystem.step at hs
  dsimp only at hs
  cases hthreads : a.sys.collector.applyThreads a.sys.kernel current iter with
  | error message =>
    rw [hthreads] at hs
    cases hs
  | ok state =>
    rw [hthreads] at hs
    cases hs
    exact ⟨_, _, rfl, rfl⟩

theorem step_drain {comm : Comm} {collector : OffCpuCollector} {a' : OffCpuAccounts}
    (hd : a.sys.collector.drain comm a.sys.kernel = (collector, { a.sys.kernel with events := [] }))
    (hs : a.step (.drain comm) = some a') :
    a' = { a with
      sys := ⟨{ a.sys.kernel with events := [] }, collector⟩
      ledger := a.ledger.drain a.sys.kernel } := by
  unfold OffCpuAccounts.step OffCpuSystem.step at hs
  dsimp only at hs
  rw [hd] at hs
  exact (Option.some.inj hs).symm

/-- A snapshot reports what the collector has counted once it is drained and split, and starts anew. -/
theorem step_snapshotWindow {comm : Comm} {boundary : ℕ} {iter : IterOrder} {collector : OffCpuCollector}
    {a' : OffCpuAccounts}
    (hd : a.sys.collector.drain comm a.sys.kernel = (collector, { a.sys.kernel with events := [] }))
    (hs : a.step (.snapshotWindow comm boundary iter) = some a') :
    let split := collector.splitPending comm boundary iter
    a' = {
      sys := ⟨{ a.sys.kernel with events := [] }, { split with
        userspaceDrops := 0
        previousStats := a.sys.kernel.stats
        samples := ∅
        switchOutEvents := 0
        completedIntervals := 0
        incompleteIntervals := 0
        aggregationDroppedEvents := 0 }⟩
      before := split.pending.size
      windows := a.windows ++ [{
        before := a.before
        after := split.pending.size
        stackFailures := a.sys.kernel.stats.stackFailures - a.sys.collector.previousStats.stackFailures
        diagnostics := split.windowDiagnostics a.sys.kernel.stats iter }]
      ledger := a.ledger.drain a.sys.kernel } := by
  unfold OffCpuAccounts.step OffCpuSystem.step OffCpuSystem.window OffCpuCollector.snapshotWindow at hs
  dsimp only at hs
  rw [hd] at hs
  exact (Option.some.inj hs).symm

theorem InBalance.snapshotWindow (h : InBalance a) (hroom : a.ledger.emitted < u64Max) {comm : Comm} {boundary : ℕ}
    {iter : IterOrder} {a' : OffCpuAccounts} (hs : a.step (.snapshotWindow comm boundary iter) = some a') :
    InBalance a' := by
  obtain ⟨collector, hd, hreceiver, hb, hemitted, hprevious⟩ := h.drained comm hroom
  obtain ⟨hout, hcompleted, hincomplete, hsplit, hsize⟩ := @splitPending_counters collector comm boundary iter
  have hledger : (a.ledger.drain a.sys.kernel).emitted = a.ledger.emitted := ledger_applyAll_emitted _ _ _
  rw [step_snapshotWindow hd hs]
  refine ⟨(splitPending_frame _ comm boundary iter).2.1.trans hreceiver, rfl, ?_, Nat.le_refl _, ?_⟩
  · dsimp only
    unfold OffCpuCollector.Balance at hb
    rw [hledger, hsize, List.length_nil]
    omega
  · intro window hmem
    rcases List.mem_append.mp hmem with hmem | hmem
    · exact h.windows window hmem
    · rw [List.mem_singleton.mp hmem]
      unfold WindowAccount.Balanced windowDiagnostics
      dsimp only
      rw [hout, hcompleted, hincomplete, hsplit, hsize, hprevious]
      exact window_balanced_iff hb (hemitted.trans_lt hroom)

theorem step_emitted {action : OffCpuStep} {a' : OffCpuAccounts} (hs : a.step action = some a') :
    a.ledger.emitted ≤ a'.ledger.emitted := by
  unfold OffCpuAccounts.step at hs
  obtain ⟨sys, -, rfl⟩ := Option.map_eq_some_iff.mp hs
  cases action with
  | schedSwitch hit => exact Nat.le_add_right _ _
  | applyThreads current iter => exact (ledger_drop_emitted _ _).ge
  | drain comm => exact (ledger_applyAll_emitted _ _ _).ge
  | snapshotWindow comm boundary iter => exact (ledger_applyAll_emitted _ _ _).ge

theorem InBalance.step (h : InBalance a) (hroom : a.ledger.emitted < u64Max) {action : OffCpuStep}
    {a' : OffCpuAccounts} (hs : a.step action = some a') : InBalance a' := by
  cases action with
  | schedSwitch hit =>
    cases hs
    exact h.schedSwitch hit
  | applyThreads current iter =>
    obtain ⟨kernel, collector, hthreads, rfl⟩ := step_applyThreads hs
    exact h.applyThreads hroom hthreads (ledger_drop_emitted _ _)
  | drain comm =>
    obtain ⟨collector, hd, hreceiver, hb, hemitted, hprevious⟩ := h.drained comm hroom
    rw [step_drain hd hs]
    refine ⟨hreceiver, hb, ?_, ?_, h.windows⟩
    · exact hemitted.trans (ledger_applyAll_emitted _ _ _).ge
    · change collector.previousStats.stackFailures ≤ a.sys.kernel.stats.stackFailures
      rw [hprevious]
      exact h.failures
  | snapshotWindow comm boundary iter => exact h.snapshotWindow hroom hs

end

/-! ## No switch-out twice -/

/-- The events with numbers below `applied` own the pending intervals or have been counted, each at most once. -/
structure Numbered (ledger : SwitchLedger) (pending : Table UInt32 PendingInterval) (applied : ℕ) : Prop where
  owners : ∀ tid, (ledger.owner.lookup tid).isSome = (pending.lookup tid).isSome
  owner : ∀ tid id, ledger.owner.lookup tid = some id → id < applied ∧ id ∉ ledger.counted
  distinct : ∀ tid tid' id, ledger.owner.lookup tid = some id → ledger.owner.lookup tid' = some id → tid = tid'
  nodup : ledger.counted.Nodup
  below : ∀ id ∈ ledger.counted, id < applied

section
variable {ledger : SwitchLedger} {pending : Table UInt32 PendingInterval} {applied : ℕ}
  (h : Numbered ledger pending applied)

include h

theorem Numbered.count : Numbered { ledger with counted := ledger.counted ++ [applied] } pending (applied + 1) := by
  have hfresh : applied ∉ ledger.counted := fun hmem => Nat.lt_irrefl _ (h.below applied hmem)
  refine ⟨h.owners, fun tid id hid => ?_, h.distinct, ?_, fun id hmem => ?_⟩
  · obtain ⟨hlt, hn⟩ := h.owner tid id hid
    refine ⟨Nat.lt_succ_of_lt hlt, fun hmem => ?_⟩
    rcases List.mem_append.mp hmem with hmem | hmem
    · exact hn hmem
    · exact Nat.ne_of_lt hlt (List.mem_singleton.mp hmem)
  · exact List.nodup_append.mpr ⟨h.nodup, List.nodup_singleton _, fun x hx y hy he =>
      hfresh (List.mem_singleton.mp hy ▸ he ▸ hx)⟩
  · rcases List.mem_append.mp hmem with hmem | hmem
    · exact Nat.lt_succ_of_lt (h.below id hmem)
    · exact (List.mem_singleton.mp hmem).symm ▸ Nat.lt_succ_self applied

theorem Numbered.dropThread (tid : UInt32) : Numbered (ledger.dropThread tid) (pending.erase tid) applied := by
  unfold SwitchLedger.dropThread
  have hother : ∀ t id, (ledger.owner.erase tid).lookup t = some id → t ≠ tid ∧ ledger.owner.lookup t = some id :=
    fun _ _ => Table.lookup_erase_eq_some.mp
  refine ⟨fun t => ?_, fun t id hid => ?_, fun t t' id hid hid' => ?_, ?_, fun id hmem => ?_⟩
  · dsimp only
    rw [Table.lookup_erase, Table.lookup_erase]
    by_cases ht : t = tid
    · rw [if_pos ht, if_pos ht]
      rfl
    · rw [if_neg ht, if_neg ht]
      exact h.owners t
  · obtain ⟨ht, hid⟩ := hother t id hid
    obtain ⟨hlt, hn⟩ := h.owner t id hid
    refine ⟨hlt, fun hmem => ?_⟩
    rcases List.mem_append.mp hmem with hmem | hmem
    · exact hn hmem
    · exact ht (h.distinct t tid id hid (Option.mem_toList.mp hmem))
  · exact h.distinct t t' id (hother t id hid).2 (hother t' id hid').2
  · cases hid : ledger.owner.lookup tid with
    | none => simpa using h.nodup
    | some id =>
      refine List.nodup_append.mpr ⟨h.nodup, List.nodup_singleton _, fun x hx y hy he => ?_⟩
      exact (h.owner tid id hid).2 (List.mem_singleton.mp hy ▸ he ▸ hx)
  · rcases List.mem_append.mp hmem with hmem | hmem
    · exact h.below id hmem
    · exact (h.owner tid id (Option.mem_toList.mp hmem)).1

theorem Numbered.enter (tid : UInt32) (interval : PendingInterval) :
    Numbered { ledger.dropThread tid with owner := ledger.owner.insert tid applied } (pending.insert tid interval)
      (applied + 1) := by
  have hd := h.dropThread tid
  have hcases : ∀ t id, (ledger.owner.insert tid applied).lookup t = some id →
      (t = tid ∧ id = applied) ∨ (ledger.owner.erase tid).lookup t = some id := by
    intro t id hid
    rcases Table.lookup_insert_eq_some.mp hid with ⟨ht, hid⟩ | hid
    · exact Or.inl ⟨ht, hid.symm⟩
    · exact Or.inr (Table.lookup_erase_eq_some.mpr hid)
  refine ⟨fun t => ?_, fun t id hid => ?_, fun t t' id hid hid' => ?_, hd.nodup,
    fun id hmem => Nat.lt_succ_of_lt (hd.below id hmem)⟩
  · dsimp only
    rw [Table.lookup_insert, Table.lookup_insert]
    by_cases ht : t = tid
    · rw [if_pos ht, if_pos ht]
      rfl
    · rw [if_neg ht, if_neg ht]
      exact h.owners t
  · rcases hcases t id hid with ⟨-, rfl⟩ | hid
    · exact ⟨Nat.lt_succ_self _, fun hmem => Nat.lt_irrefl _ (hd.below _ hmem)⟩
    · exact ⟨Nat.lt_succ_of_lt (hd.owner t id hid).1, (hd.owner t id hid).2⟩
  · rcases hcases t id hid with ⟨rfl, rfl⟩ | hid <;> rcases hcases t' id hid' with ⟨rfl, he⟩ | hid'
    · rfl
    · exact (Nat.lt_irrefl _ (hd.owner t' _ hid').1).elim
    · rw [he] at hid
      exact (Nat.lt_irrefl _ (hd.owner t _ hid).1).elim
    · exact hd.distinct t t' id hid hid'

theorem Numbered.complete (tid : UInt32) {pending' : Table UInt32 PendingInterval}
    (hp : ∀ t, pending'.lookup t = if t = tid then none else pending.lookup t) :
    Numbered { ledger with owner := ledger.owner.erase tid } pending' (applied + 1) := by
  have hother : ∀ t id, (ledger.owner.erase tid).lookup t = some id → ledger.owner.lookup t = some id :=
    fun _ _ hid => (Table.lookup_erase_eq_some.mp hid).2
  refine ⟨fun t => ?_, fun t id hid => ?_,
    fun t t' id hid hid' => h.distinct t t' id (hother t id hid) (hother t' id hid'), h.nodup,
    fun id hmem => Nat.lt_succ_of_lt (h.below id hmem)⟩
  · dsimp only
    rw [Table.lookup_erase, hp]
    by_cases ht : t = tid
    · rw [if_pos ht, if_pos ht]
      rfl
    · rw [if_neg ht, if_neg ht]
      exact h.owners t
  · obtain ⟨hlt, hn⟩ := h.owner t id (hother t id hid)
    exact ⟨Nat.lt_succ_of_lt hlt, hn⟩

end

section
variable {ledger : SwitchLedger} {self : OffCpuCollector} {applied reported before : ℕ} (comm : Comm)

theorem Numbered.apply (h : Numbered ledger self.pending applied)
    (hcount : reported + self.incompleteIntervals = ledger.counted.length)
    (hroom : self.incompleteIntervals < u64Max) (event : SwitchEvent) :
    Numbered (ledger.apply applied event) (self.apply comm event).pending (applied + 1) ∧
      reported + (self.apply comm event).incompleteIntervals = (ledger.apply applied event).counted.length := by
  unfold SwitchLedger.apply OffCpuCollector.apply
  cases event.kind with
  | switchOut =>
    unfold applySwitchOut
    dsimp only
    by_cases hf : event.frames = []
    · rw [if_pos hf, if_pos hf]
      refine ⟨h.count, ?_⟩
      dsimp only
      rw [saturatingAddU64_one hroom, List.length_append, List.length_singleton]
      omega
    · rw [if_neg hf, if_neg hf]
      refine ⟨h.enter event.tid _, ?_⟩
      dsimp only
      rw [List.length_append]
      have howner := h.owners event.tid
      -- An interval that the thread has pending is overwritten and counted as incomplete.
      by_cases hp : event.tid ∈ self.pending
      · obtain ⟨interval, hp'⟩ := Table.mem_iff.mp hp
        rw [hp'] at howner
        obtain ⟨id, hid⟩ := Option.isSome_iff_exists.mp howner
        rw [if_pos hp, saturatingAddU64_one hroom, hid]
        change _ = _ + 1
        omega
      · rw [Table.notMem_iff.mp hp] at howner
        rw [if_neg hp, saturatingAddU64_zero hroom.le,
          Option.isSome_eq_false_iff.mp howner |> Option.isNone_iff_eq_none.mp]
        exact hcount
  | switchIn =>
    refine ⟨h.complete event.tid fun t => ?_, ?_⟩
    · have hp := self.apply_pending comm { event with kind := .switchIn } t
      unfold OffCpuCollector.apply OffCpuCollector.pendingAfter at hp
      dsimp only at hp
      simp only [eq_comm (a := t)]
      exact hp
    · unfold applySwitchIn
      cases self.pending.lookup event.tid with
      | none => exact hcount
      | some interval =>
        dsimp only
        rw [(aggregate_counters _ comm _ _ _ _ _).2.2.1]
        exact hcount

theorem Numbered.applyAll :
    ∀ (events : List SwitchEvent) {ledger : SwitchLedger} {self : OffCpuCollector} {applied : ℕ},
    Numbered ledger self.pending applied → reported + self.incompleteIntervals = ledger.counted.length →
    self.Balance before → self.switchOutEvents + before + events.length ≤ u64Max →
      Numbered (ledger.applyAll applied events) (events.foldl (OffCpuCollector.apply · comm) self).pending
          (applied + events.length) ∧
        reported + (events.foldl (OffCpuCollector.apply · comm) self).incompleteIntervals =
          (ledger.applyAll applied events).counted.length
  | [], _, _, _, h, hcount, _, _ => ⟨h, hcount⟩
  | event :: events, ledger, self, applied, h, hcount, hb, hroom => by
    rw [List.length_cons] at hroom
    have hincomplete : self.incompleteIntervals < u64Max := by
      unfold OffCpuCollector.Balance at hb
      omega
    obtain ⟨hn, hc⟩ := h.apply comm hcount hincomplete event
    obtain ⟨hb', hout⟩ := apply_balance comm hb event (by omega)
    obtain ⟨hn', hc'⟩ := Numbered.applyAll events hn hc hb' (by omega)
    rw [Nat.add_assoc, Nat.add_comm 1] at hn'
    exact ⟨hn', hc'⟩

theorem Numbered.drop (h : Numbered ledger self.pending applied)
    (hcount : reported + self.incompleteIntervals = ledger.counted.length)
    (hroom : self.incompleteIntervals + self.pending.size ≤ u64Max) (kernel : OffCpuBpf) (tid : UInt32) :
    Numbered (ledger.dropThread tid) (self.dropThread kernel tid).2.pending applied ∧
      reported + (self.dropThread kernel tid).2.incompleteIntervals = (ledger.dropThread tid).counted.length := by
  have hn := h.dropThread tid
  have howner := h.owners tid
  unfold OffCpuCollector.dropThread
  cases hp : self.pending.lookup tid with
  | none =>
    rw [hp] at howner
    have hnone : ledger.owner.lookup tid = none := Option.isNone_iff_eq_none.mp (Option.isSome_eq_false_iff.mp howner)
    rw [Table.erase_of_notMem (Table.notMem_iff.mpr hp)] at hn
    refine ⟨hn, ?_⟩
    unfold SwitchLedger.dropThread
    rw [hnone]
    simpa using hcount
  | some interval =>
    rw [hp] at howner
    obtain ⟨id, hid⟩ := Option.isSome_iff_exists.mp howner
    have hsize := size_erase hp
    refine ⟨hn, ?_⟩
    unfold SwitchLedger.dropThread
    dsimp only
    rw [hid, saturatingAddU64_one (by omega), List.length_append]
    change _ = _ + 1
    omega

theorem Numbered.dropAll : ∀ (l : List UInt32) {ledger : SwitchLedger} {state : OffCpuBpf × OffCpuCollector},
    Numbered ledger state.2.pending applied → reported + state.2.incompleteIntervals = ledger.counted.length →
    state.2.Balance before → state.2.switchOutEvents + before ≤ u64Max →
      Numbered (l.foldl SwitchLedger.dropThread ledger)
          (l.foldl (fun state tid => state.2.dropThread state.1 tid) state).2.pending applied ∧
        reported + (l.foldl (fun state tid => state.2.dropThread state.1 tid) state).2.incompleteIntervals =
          (l.foldl SwitchLedger.dropThread ledger).counted.length
  | [], _, _, h, hcount, _, _ => ⟨h, hcount⟩
  | tid :: l, ledger, state, h, hcount, hb, hroom => by
    have hsize : state.2.incompleteIntervals + state.2.pending.size ≤ u64Max := by
      unfold OffCpuCollector.Balance at hb
      omega
    obtain ⟨hn, hc⟩ := h.drop hcount hsize state.1 tid
    obtain ⟨hb', hout⟩ := dropThread_balance hb hroom state.1 tid
    exact Numbered.dropAll l hn hc hb' (hout ▸ hroom)

theorem Numbered.mono {pending : Table UInt32 PendingInterval} (h : Numbered ledger pending applied) {later : ℕ}
    (hle : applied ≤ later) : Numbered ledger pending later :=
  ⟨h.owners, fun tid id hid => ⟨(h.owner tid id hid).1.trans_le hle, (h.owner tid id hid).2⟩, h.distinct, h.nodup,
    fun id hmem => (h.below id hmem).trans_le hle⟩

theorem Numbered.congr {pending pending' : Table UInt32 PendingInterval} (h : Numbered ledger pending applied)
    (hp : ∀ tid, (pending'.lookup tid).isSome = (pending.lookup tid).isSome) : Numbered ledger pending' applied :=
  ⟨fun tid => (h.owners tid).trans (hp tid).symm, h.owner, h.distinct, h.nodup, h.below⟩

end

/-- Every switch-out so far has been counted incomplete at most once, and the counts are the code's. -/
structure CountedOnce (a : OffCpuAccounts) : Prop where
  numbered : Numbered a.ledger a.sys.collector.pending (a.ledger.applied a.sys.kernel)
  failures : a.sys.kernel.stats.stackFailures = a.sys.collector.previousStats.stackFailures
  windows : ∀ window ∈ a.windows, window.stackFailures = 0
  count : (a.windows.map fun window => window.diagnostics.incompleteIntervals).sum +
    a.sys.collector.incompleteIntervals = a.ledger.counted.length

section
variable {a : OffCpuAccounts} (h : CountedOnce a) (hbalance : InBalance a) (hroom : a.ledger.emitted < u64Max)

include h hbalance

theorem CountedOnce.schedSwitch {hit : SwitchHit} (hread : a.sys.kernel.stackFails hit = false) :
    CountedOnce { a with
      sys := { a.sys with kernel := a.sys.kernel.schedSwitch hit }
      ledger := a.ledger.schedSwitch a.sys.kernel hit } := by
  obtain ⟨new, hnew⟩ := a.sys.kernel.schedSwitch_emits hit
  have hemitted := hbalance.emitted
  have hledger : a.ledger.schedSwitch a.sys.kernel hit =
      { a.ledger with emitted := a.ledger.emitted + new.length } := by
    unfold SwitchLedger.schedSwitch
    rw [hread, hnew.events, List.length_append, Nat.add_sub_cancel_left]
    simp
  have happlied : (a.ledger.schedSwitch a.sys.kernel hit).applied (a.sys.kernel.schedSwitch hit) =
      a.ledger.applied a.sys.kernel := by
    unfold SwitchLedger.applied
    rw [hledger, hnew.events, List.length_append]
    dsimp only
    omega
  refine ⟨?_, ?_, h.windows, ?_⟩
  · dsimp only
    rw [happlied, hledger]
    have hn := h.numbered
    exact ⟨hn.owners, hn.owner, hn.distinct, hn.nodup, hn.below⟩
  · dsimp only
    rw [OffCpuBpf.schedSwitch_failures, hread]
    exact h.failures
  · dsimp only
    rw [hledger]
    exact h.count

include hroom

theorem CountedOnce.drained {comm : Comm} {collector : OffCpuCollector}
    (hd : a.sys.collector.drain comm a.sys.kernel = (collector, { a.sys.kernel with events := [] })) :
    Numbered (a.ledger.drain a.sys.kernel) collector.pending a.ledger.emitted ∧
      (a.windows.map fun window => window.diagnostics.incompleteIntervals).sum + collector.incompleteIntervals =
        (a.ledger.drain a.sys.kernel).counted.length := by
  obtain ⟨taking, hd', -, hpending, -, hout, hincomplete, hb⟩ :=
    @drain_taking a.sys.collector comm a.before a.sys.kernel hbalance.receiver
  have hemitted := hbalance.emitted
  have htake := List.length_take_le' offCpuQueueCapacity a.sys.kernel.events
  rw [hd'] at hd
  obtain ⟨hn, hc⟩ := Numbered.applyAll comm (a.sys.kernel.events.take offCpuQueueCapacity)
    (hpending.symm ▸ h.numbered) (hincomplete.symm ▸ h.count) (hb hbalance.balance) (by omega)
  rw [(Prod.mk.inj hd).1] at hn hc
  refine ⟨hn.mono ?_, hc⟩
  unfold SwitchLedger.applied
  omega

theorem CountedOnce.applyThreads {current : Table UInt32 UInt32} {iter : IterOrder} {kernel : OffCpuBpf}
    {collector : OffCpuCollector}
    (hs : a.sys.collector.applyThreads a.sys.kernel current iter = .ok (kernel, collector)) :
    CountedOnce { a with
      sys := ⟨kernel, collector⟩
      ledger := (iter.order (a.sys.collector.trackedTids.keys.filter (· ∉ current))).foldl
        SwitchLedger.dropThread a.ledger } := by
  obtain ⟨mid, hevents, hstats, final, hfinal, rfl, rfl⟩ := applyThreads_drops hs
  have hemitted := hbalance.emitted
  obtain ⟨hn, hc⟩ := Numbered.dropAll (iter.order (a.sys.collector.trackedTids.keys.filter (· ∉ current)))
    (show Numbered a.ledger (mid, a.sys.collector).2.pending _ from h.numbered) h.count hbalance.balance
    (by dsimp only; omega)
  have hdropped := drop_loop (iter.order (a.sys.collector.trackedTids.keys.filter (· ∉ current))) (mid, a.sys.collector)
  have hprevious : final.2.previousStats = a.sys.collector.previousStats := by
    rw [hfinal]
    exact @foldl_frame _ _ _ (fun state : OffCpuBpf × OffCpuCollector => state.2.previousStats) _
      (fun s tid => dropThread_previousStats s.2 s.1 tid) _ _
  rw [← hfinal] at hn hc hdropped
  refine ⟨?_, ?_, h.windows, hc⟩
  · unfold SwitchLedger.applied at hn ⊢
    dsimp only
    rw [ledger_drop_emitted, hdropped.events]
    change Numbered _ _ (a.ledger.emitted - mid.events.length)
    rw [hevents]
    exact hn
  · change final.1.stats.stackFailures = final.2.previousStats.stackFailures
    rw [hprevious, hdropped.stats]
    change mid.stats.stackFailures = _
    rw [hstats]
    exact h.failures

theorem CountedOnce.snapshotWindow {comm : Comm} {boundary : ℕ} {iter : IterOrder} {a' : OffCpuAccounts}
    (hs : a.step (.snapshotWindow comm boundary iter) = some a') : CountedOnce a' := by
  obtain ⟨collector, hd, -, hb, hemitted, hprevious⟩ := hbalance.drained comm hroom
  obtain ⟨hn, hc⟩ := h.drained hbalance hroom hd
  obtain ⟨-, -, hincomplete, hsplit, -⟩ := @splitPending_counters collector comm boundary iter
  have hledger : (a.ledger.drain a.sys.kernel).emitted = a.ledger.emitted := ledger_applyAll_emitted _ _ _
  have hle : collector.incompleteIntervals ≤ u64Max := by
    unfold OffCpuCollector.Balance at hb
    omega
  rw [step_snapshotWindow hd hs]
  refine ⟨?_, rfl, fun window hmem => ?_, ?_⟩
  · unfold SwitchLedger.applied
    dsimp only
    rw [hledger]
    refine hn.congr fun tid => ?_
    rw [(splitPending_frame _ comm boundary iter).2.2, Option.isSome_map]
  · rcases List.mem_append.mp hmem with hmem | hmem
    · exact h.windows window hmem
    · rw [List.mem_singleton.mp hmem]
      exact Nat.sub_eq_zero_of_le h.failures.le
  · dsimp only
    rw [List.map_append, List.sum_append, Nat.add_zero, ← hc]
    unfold windowDiagnostics
    simp only [List.map_cons, List.map_nil, List.sum_cons, List.sum_nil, Nat.add_zero]
    rw [hincomplete, hsplit, hprevious, h.failures, Nat.sub_self, saturatingAddU64_zero hle]

theorem CountedOnce.step {action : OffCpuStep} (hread : a.StacksRead action) {a' : OffCpuAccounts}
    (hs : a.step action = some a') : CountedOnce a' := by
  cases action with
  | schedSwitch hit =>
    cases hs
    exact h.schedSwitch hbalance hread
  | applyThreads current iter =>
    obtain ⟨kernel, collector, hthreads, rfl⟩ := step_applyThreads hs
    exact h.applyThreads hbalance hroom hthreads
  | drain comm =>
    obtain ⟨collector, hd, -, -, -, hprevious⟩ := hbalance.drained comm hroom
    obtain ⟨hn, hc⟩ := h.drained hbalance hroom hd
    rw [step_drain hd hs]
    refine ⟨?_, ?_, h.windows, hc⟩
    · unfold SwitchLedger.applied
      dsimp only
      rw [show (a.ledger.drain a.sys.kernel).emitted = a.ledger.emitted from ledger_applyAll_emitted _ _ _]
      exact hn
    · dsimp only
      rw [hprevious]
      exact h.failures
  | snapshotWindow comm boundary iter => exact h.snapshotWindow hbalance hroom hs

end

/-! ## Every run -/

theorem attach_new {current : Table UInt32 UInt32} {iter : IterOrder} {maxStacks maxThreads : ℕ}
    {kernel : OffCpuBpf} {collector : OffCpuCollector}
    (h : OffCpuCollector.attach current iter maxStacks maxThreads = .ok (kernel, collector)) :
    kernel.events = [] ∧ kernel.stats = OffCpuBpf.loaded.stats ∧
      collector = { OffCpuCollector.new maxStacks maxThreads with
        trackedTids := current
        previousStats := kernel.stats } := by
  obtain ⟨tracking, ha, rfl⟩ := attach_ok h
  obtain ⟨mid, hevents, hstats, final, hfinal, rfl, rfl⟩ := applyThreads_drops ha
  have hleft : iter.order ((OffCpuCollector.new maxStacks maxThreads).trackedTids.keys.filter (· ∉ current)) = [] :=
    (iter.perm _).eq_nil
  rw [hleft, List.foldl_nil] at hfinal
  rw [hfinal]
  exact ⟨hevents, hstats, rfl⟩

section
variable {current : Table UInt32 UInt32} {iter : IterOrder} {maxStacks maxThreads : ℕ} {kernel : OffCpuBpf}
  {collector : OffCpuCollector}
  (hattach : OffCpuCollector.attach current iter maxStacks maxThreads = .ok (kernel, collector))

include hattach

theorem start_inBalance : InBalance (.start kernel collector) := by
  obtain ⟨hevents, hstats, rfl⟩ := attach_new hattach
  refine ⟨rfl, rfl, ?_, Nat.le_refl _, fun window hmem => absurd hmem List.not_mem_nil⟩
  change 0 + 0 + kernel.events.length ≤ 0
  rw [hevents]
  rfl

theorem start_countedOnce : CountedOnce (.start kernel collector) := by
  obtain ⟨hevents, hstats, rfl⟩ := attach_new hattach
  refine ⟨⟨fun _ => rfl, fun _ _ hid => ?_, fun _ _ _ hid => ?_, List.nodup_nil, fun id hmem => ?_⟩, rfl,
    fun window hmem => absurd hmem List.not_mem_nil, rfl⟩
  · cases hid
  · cases hid
  · exact absurd hmem List.not_mem_nil

/-- **The switch-outs balance.** A window is in balance exactly when the kernel
read every stack during it; in a run in which it reads them all, every window is
and no switch-out is counted incomplete twice. -/
theorem switchOuts_balance {steps : List OffCpuStep} {a : OffCpuAccounts}
    (hrun : run OffCpuAccounts.step (.start kernel collector) steps = some a) (hroom : a.ledger.emitted < u64Max) :
    (∀ window ∈ a.windows, window.Balanced ↔ window.stackFailures = 0) ∧
      (Guarded OffCpuAccounts.step OffCpuAccounts.StacksRead (.start kernel collector) steps →
        (∀ window ∈ a.windows, window.Balanced) ∧ a.ledger.counted.Nodup ∧
          (a.windows.map fun window => window.diagnostics.incompleteIntervals).sum +
            a.sys.collector.incompleteIntervals = a.ledger.counted.length) := by
  have hemitted : ∀ s action t, (s.ledger.emitted < u64Max → InBalance s) → OffCpuAccounts.step s action = some t →
      t.ledger.emitted < u64Max → InBalance t := fun s action t h hs ht =>
    have hlt := (step_emitted hs).trans_lt ht
    (h hlt).step hlt hs
  have hbalance := run_inv' OffCpuAccounts.step hemitted (fun _ => start_inBalance hattach) hrun hroom
  refine ⟨hbalance.windows, fun hguard => ?_⟩
  have hstep : ∀ s action t, (s.ledger.emitted < u64Max → InBalance s ∧ CountedOnce s) → s.StacksRead action →
      OffCpuAccounts.step s action = some t → t.ledger.emitted < u64Max → InBalance t ∧ CountedOnce t := by
    intro s action t h hread hs ht
    have hlt := (step_emitted hs).trans_lt ht
    obtain ⟨hb, hc⟩ := h hlt
    exact ⟨hb.step hlt hs, hc.step hb hlt hread hs⟩
  obtain ⟨-, hcounted⟩ := run_inv OffCpuAccounts.step hstep
    (fun _ => ⟨start_inBalance hattach, start_countedOnce hattach⟩) hguard hrun hroom
  exact ⟨fun window hmem => (hbalance.windows window hmem).mpr (hcounted.windows window hmem), hcounted.numbered.nodup,
    hcounted.count⟩

end

def oneSwitchOut (stack : Option (List UInt64)) : List OffCpuStep :=
  [.schedSwitch { prevTid := 7, nextTid := 0, outTimestamp := 100, inTimestamp := 100, stack := stack },
    .snapshotWindow (fun _ _ => none) 200 .stored]

theorem switchOuts_balance_oneSwitchOut : ∃ a,
    run OffCpuAccounts.step (.start tracking7.1 tracking7.2) (oneSwitchOut (some [0x400000])) = some a ∧
    (∀ window ∈ a.windows, window.Balanced) ∧ a.ledger.counted.Nodup := by
  obtain ⟨-, hread⟩ := @switchOuts_balance thread7 .stored 10 10 tracking7.1 tracking7.2 rfl
    (oneSwitchOut (some [0x400000])) _ rfl (by decide)
  obtain ⟨hwindows, hnodup, -⟩ := hread (guarded_cons _ rfl rfl (guarded_cons _ trivial rfl trivial))
  exact ⟨_, rfl, hwindows, hnodup⟩

/-- A switch-out whose stack cannot be read is one switch-out and two incomplete intervals. -/
theorem unreadStack_countedTwice : ∃ a,
    run OffCpuAccounts.step (.start tracking7.1 tracking7.2) (oneSwitchOut none) = some a ∧
    (∃ window ∈ a.windows, window.diagnostics.switchOutEvents = 1 ∧ window.diagnostics.incompleteIntervals = 2 ∧
      ¬window.Balanced) ∧ ¬a.ledger.counted.Nodup :=
  ⟨_, rfl, ⟨_, List.mem_cons_self, rfl, rfl, by unfold WindowAccount.Balanced; decide⟩,
    fun h => absurd h (by decide : ¬[0, 0].Nodup)⟩

end RustProfile
