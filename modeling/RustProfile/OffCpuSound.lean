import RustProfile.OffCpuLemmas
import RustProfile.Lib.Run

/-!
# Pending intervals belong to tracked threads

A switch-out that is still queued when `apply_threads` stops tracking its thread
is applied afterwards. When every reconciliation agrees with the pending
intervals and with the last queued switch of each thread, every pending interval
belongs to a tracked thread, and a thread that is no longer tracked is charged
nothing in later windows.
-/

namespace RustProfile

open Run

/-- `current` lists every thread that is switched out, pending or queued, under
the process of the interval. -/
structure SettledThreads (sys : OffCpuSystem) (current : Table UInt32 UInt32) : Prop where
  pending : ∀ tid interval pid, sys.collector.pending.lookup tid = some interval →
    current.lookup tid = some pid → pid = interval.pid
  queued : ∀ tid event, lastSwitch (sys.kernel.events.take offCpuQueueCapacity) tid = some event →
    event.kind = .switchOut → current.lookup tid = some event.pid

def PendingTracked (collector : OffCpuCollector) : Prop :=
  ∀ tid interval, collector.pending.lookup tid = some interval → collector.trackedTids.lookup tid = some interval.pid

def SettledStep (sys : OffCpuSystem) : OffCpuStep → Prop
  | .applyThreads current _ => SettledThreads sys current
  | _ => True

/-! ## The invariant -/

structure OwnedIntervals (sys : OffCpuSystem) : Prop where
  receiver : sys.collector.receiver = []
  tracked : ∀ tid, sys.kernel.trackedTids.lookup tid = sys.collector.trackedTids.lookup tid
  pending : PendingTracked sys.collector
  queued : ∀ tid event, lastSwitch (sys.kernel.events.take offCpuQueueCapacity) tid = some event →
    event.kind = .switchOut → sys.collector.trackedTids.lookup tid = some event.pid

namespace OwnedIntervals

variable {sys : OffCpuSystem} (h : OwnedIntervals sys)
include h

theorem schedSwitch (hit : SwitchHit) : OwnedIntervals { sys with kernel := sys.kernel.schedSwitch hit } := by
  obtain ⟨new, hnew⟩ := sys.kernel.schedSwitch_emits hit
  refine ⟨h.receiver, fun tid => ?_, h.pending, fun tid event hl hk => ?_⟩
  · dsimp only
    rw [hnew.trackedTids, h.tracked]
  · dsimp only at hl ⊢
    rw [hnew.events, List.take_append] at hl
    rcases lastSwitch_append hl with ⟨hmem, ht⟩ | hl
    · rw [← ht, ← h.tracked]
      exact hnew.tracked event (List.mem_of_mem_take hmem)
    · exact h.queued tid event hl hk

theorem drain (comm : Comm) :
    OwnedIntervals ⟨(sys.collector.drain comm sys.kernel).2, (sys.collector.drain comm sys.kernel).1⟩ := by
  obtain ⟨drops, hd⟩ := sys.collector.drain_eq comm sys.kernel h.receiver
  rw [hd]
  obtain ⟨htr, hre⟩ := OffCpuCollector.foldl_apply_frame
    { sys.collector with userspaceDrops := sys.collector.userspaceDrops + drops } comm
    (sys.kernel.events.take offCpuQueueCapacity)
  refine ⟨hre.trans h.receiver, fun tid => (h.tracked tid).trans (by rw [htr]), fun tid interval hp => ?_,
    fun tid event hl => by simp [lastSwitch] at hl⟩
  dsimp only at hp ⊢
  rw [htr]
  rw [OffCpuCollector.foldl_apply_pending] at hp
  cases hl : lastSwitch (sys.kernel.events.take offCpuQueueCapacity) tid with
  | none =>
    rw [hl] at hp
    exact h.pending tid interval hp
  | some event =>
    rw [hl] at hp
    dsimp only [OffCpuCollector.pendingAfter] at hp
    split at hp
    · rename_i hk
      split at hp
      · cases hp
      · cases hp
        exact h.queued tid event hl hk
    · cases hp

theorem snapshotWindow (comm : Comm) (boundary : ℕ) (iter : IterOrder) :
    OwnedIntervals ⟨(sys.collector.snapshotWindow comm sys.kernel boundary iter).2.2,
      (sys.collector.snapshotWindow comm sys.kernel boundary iter).2.1⟩ := by
  have hd := h.drain comm
  obtain ⟨htr, hre, hp⟩ := (sys.collector.drain comm sys.kernel).1.splitPending_frame comm boundary iter
  have hlook : ∀ tid, ((sys.collector.drain comm sys.kernel).1.splitPending comm boundary iter).trackedTids.lookup tid =
      (sys.collector.drain comm sys.kernel).1.trackedTids.lookup tid := fun tid => by rw [htr]
  refine ⟨hre.trans hd.receiver, fun tid => (hd.tracked tid).trans (hlook tid).symm, fun tid interval hi => ?_,
    fun tid event hl hk => (hlook tid).trans (hd.queued tid event hl hk)⟩
  obtain ⟨interval', hi', rfl⟩ := Option.map_eq_some_iff.mp ((hp tid).symm.trans hi)
  exact (hlook tid).trans (hd.pending tid interval' hi')

theorem applyThreads {current : Table UInt32 UInt32} {iter : IterOrder} {kernel : OffCpuBpf}
    {collector : OffCpuCollector} (hs : SettledThreads sys current)
    (ha : sys.collector.applyThreads sys.kernel current iter = .ok (kernel, collector)) :
    OwnedIntervals ⟨kernel, collector⟩ := by
  have hr := sys.collector.applyThreads_reconciled h.tracked ha
  refine ⟨hr.receiver.trans h.receiver, fun tid => by rw [hr.tracked, hr.trackedTids], fun tid interval hi => ?_,
    fun tid event hl hk => ?_⟩
  · dsimp only at hi ⊢
    rw [hr.pending] at hi
    split at hi
    · cases hi
    · rename_i hkeep
      rw [hr.trackedTids]
      have htr := h.pending tid interval hi
      obtain ⟨pid, hp⟩ : ∃ pid, current.lookup tid = some pid := Table.mem_iff.mp <| by
        by_contra hc
        exact hkeep ⟨Table.mem_of_lookup htr, hc⟩
      rw [hp, hs.pending tid interval pid hi hp]
  · dsimp only at hl ⊢
    rw [hr.trackedTids]
    exact hs.queued tid event (hr.events ▸ hl) hk

/-- A reconciliation that is not settled breaks the invariant at once or with the next drain. -/
theorem unsettled_breaks {current : Table UInt32 UInt32} {iter : IterOrder} {kernel : OffCpuBpf}
    {collector : OffCpuCollector} (hs : ¬ SettledThreads sys current) (comm : Comm)
    (ha : sys.collector.applyThreads sys.kernel current iter = .ok (kernel, collector)) :
    ¬ PendingTracked collector ∨ ¬ PendingTracked (collector.drain comm kernel).1 := by
  have hr := sys.collector.applyThreads_reconciled h.tracked ha
  by_contra hno
  obtain ⟨hnow, hnext⟩ := not_or.mp hno
  refine hs ⟨fun tid interval pid hi hp => ?_, fun tid event hl hk => ?_⟩
  -- The interval survives the reconciliation, so its thread is tracked by the value it had.
  · have hkept : collector.pending.lookup tid = some interval := by
      rw [hr.pending, if_neg fun hgone => hgone.2 (Table.mem_of_lookup hp), hi]
    have := not_not.mp hnow tid interval hkept
    rw [hr.trackedTids, hp] at this
    exact Option.some.inj this
  · obtain ⟨drops, hd⟩ := collector.drain_eq comm kernel (hr.receiver.trans h.receiver)
    have hframes : event.frames ≠ [] := (mem_of_lastSwitch hl).2.2.resolve_left (by rw [hk]; exact nofun)
    have hdrained := not_not.mp hnext
    rw [hd, hr.events] at hdrained
    have := hdrained tid { pid := event.pid, started := event.timestamp, stack := Stack.ofAddresses event.frames }
      (by rw [OffCpuCollector.foldl_apply_pending, hl]; simp [OffCpuCollector.pendingAfter, hk, hframes])
    rw [(OffCpuCollector.foldl_apply_frame _ comm _).1] at this
    exact (congrArg (AList.lookup tid) hr.trackedTids).symm.trans this

theorem step {a : OffCpuStep} {sys' : OffCpuSystem} (ha : SettledStep sys a) (hs : sys.step a = some sys') :
    OwnedIntervals sys' := by
  cases a with
  | schedSwitch hit =>
    cases hs
    exact h.schedSwitch hit
  | applyThreads current iter =>
    simp only [OffCpuSystem.step] at hs
    split at hs
    · rename_i kernel collector hok
      cases hs
      exact h.applyThreads ha hok
    · cases hs
  | drain comm =>
    cases hs
    exact h.drain comm
  | snapshotWindow comm boundary iter =>
    cases hs
    exact h.snapshotWindow comm boundary iter

end OwnedIntervals

theorem attach_owned {current : Table UInt32 UInt32} {iter : IterOrder} {maxStacks maxThreads : ℕ}
    {kernel : OffCpuBpf} {collector : OffCpuCollector}
    (h : OffCpuCollector.attach current iter maxStacks maxThreads = .ok (kernel, collector)) :
    OwnedIntervals ⟨kernel, collector⟩ := by
  obtain ⟨tracking, ha, rfl⟩ := OffCpuCollector.attach_ok h
  have hnew : OwnedIntervals ⟨.loaded, .new maxStacks maxThreads⟩ :=
    ⟨rfl, fun _ => rfl, fun tid interval hi => (by cases hi), fun tid event hl => (by cases hl)⟩
  have hs : SettledThreads ⟨.loaded, .new maxStacks maxThreads⟩ current :=
    ⟨fun tid interval pid hi => (by cases hi), fun tid event hl => (by cases hl)⟩
  have hst := hnew.applyThreads hs ha
  exact ⟨hst.receiver, hst.tracked, hst.pending, hst.queued⟩

/-! ## A thread that has been reconciled away -/

structure Gone (tid : UInt32) (sys : OffCpuSystem) : Prop where
  receiver : sys.collector.receiver = []
  tracked : ∀ t, sys.kernel.trackedTids.lookup t = sys.collector.trackedTids.lookup t
  untracked : tid ∉ sys.collector.trackedTids
  pending : tid ∉ sys.collector.pending
  events : ∀ event ∈ sys.kernel.events, event.tid ≠ tid
  samples : ∀ key ∈ sys.collector.samples, key.tid ≠ tid

def Unlisted (tid : UInt32) : OffCpuStep → Prop
  | .applyThreads current _ => tid ∉ current
  | _ => True

namespace Gone

variable {sys : OffCpuSystem} {tid : UInt32} (h : Gone tid sys)
include h

theorem schedSwitch (hit : SwitchHit) : Gone tid { sys with kernel := sys.kernel.schedSwitch hit } := by
  obtain ⟨new, hnew⟩ := sys.kernel.schedSwitch_emits hit
  refine ⟨h.receiver, fun t => ?_, h.untracked, h.pending, fun event he => ?_, h.samples⟩
  · dsimp only
    rw [hnew.trackedTids, h.tracked]
  · rw [hnew.events, List.mem_append] at he
    rcases he with he | he
    · exact h.events event he
    · have hp := (h.tracked _).symm.trans (hnew.tracked event he)
      exact fun ht => h.untracked (ht ▸ Table.mem_of_lookup hp)

theorem drain (comm : Comm) :
    Gone tid ⟨(sys.collector.drain comm sys.kernel).2, (sys.collector.drain comm sys.kernel).1⟩ := by
  obtain ⟨drops, hd⟩ := sys.collector.drain_eq comm sys.kernel h.receiver
  rw [hd]
  have hev : ∀ event ∈ sys.kernel.events.take offCpuQueueCapacity, event.tid ≠ tid :=
    fun event he => h.events event (List.mem_of_mem_take he)
  obtain ⟨htr, hre⟩ := OffCpuCollector.foldl_apply_frame
    { sys.collector with userspaceDrops := sys.collector.userspaceDrops + drops } comm
    (sys.kernel.events.take offCpuQueueCapacity)
  refine ⟨hre.trans h.receiver, fun t => (h.tracked t).trans (by rw [htr]), fun ht => h.untracked (htr ▸ ht), ?_,
    fun _ he => absurd he List.not_mem_nil, fun key hk => ?_⟩
  · rw [Table.notMem_iff, OffCpuCollector.foldl_apply_pending]
    cases hl : lastSwitch (sys.kernel.events.take offCpuQueueCapacity) tid with
    | none => exact Table.notMem_iff.mp h.pending
    | some event => exact absurd (mem_of_lastSwitch hl).2.1 (hev event (mem_of_lastSwitch hl).1)
  · rcases OffCpuCollector.foldl_apply_samples _ comm hk with hk | ⟨event, he, hkey⟩
    · exact h.samples key hk
    · rw [hkey]
      exact hev event he

theorem window (comm : Comm) (boundary : ℕ) (iter : IterOrder) :
    ∀ key ∈ (sys.window comm boundary iter).1, key.tid ≠ tid := by
  intro key hk
  have hd := h.drain comm
  rcases OffCpuCollector.splitPending_samples _ comm hk with hk | hk
  · exact hd.samples key hk
  · exact fun ht => hd.pending (ht ▸ hk)

theorem snapshotWindow (comm : Comm) (boundary : ℕ) (iter : IterOrder) :
    Gone tid ⟨(sys.collector.snapshotWindow comm sys.kernel boundary iter).2.2,
      (sys.collector.snapshotWindow comm sys.kernel boundary iter).2.1⟩ := by
  have hd := h.drain comm
  obtain ⟨htr, hre, hp⟩ := (sys.collector.drain comm sys.kernel).1.splitPending_frame comm boundary iter
  refine ⟨hre.trans hd.receiver, fun t => (hd.tracked t).trans (congrArg (AList.lookup t) htr.symm),
    fun ht => hd.untracked (htr ▸ ht), ?_, hd.events, fun key hk => absurd hk (AList.notMem_empty _)⟩
  exact Table.notMem_iff.mpr ((hp tid).trans (by rw [Table.notMem_iff.mp hd.pending]; rfl))

theorem applyThreads {current : Table UInt32 UInt32} {iter : IterOrder} {kernel : OffCpuBpf}
    {collector : OffCpuCollector} (hc : tid ∉ current)
    (ha : sys.collector.applyThreads sys.kernel current iter = .ok (kernel, collector)) :
    Gone tid ⟨kernel, collector⟩ := by
  have hr := sys.collector.applyThreads_reconciled h.tracked ha
  refine ⟨hr.receiver.trans h.receiver, fun t => by rw [hr.tracked, hr.trackedTids], hr.trackedTids ▸ hc, ?_,
    hr.events ▸ h.events, hr.samples ▸ h.samples⟩
  rw [Table.notMem_iff, hr.pending, Table.notMem_iff.mp h.pending, ite_self]

theorem step {a : OffCpuStep} {sys' : OffCpuSystem} (ha : Unlisted tid a) (hs : sys.step a = some sys') :
    Gone tid sys' := by
  cases a with
  | schedSwitch hit =>
    cases hs
    exact h.schedSwitch hit
  | applyThreads current iter =>
    simp only [OffCpuSystem.step] at hs
    split at hs
    · rename_i kernel collector hok
      cases hs
      exact h.applyThreads ha hok
    · cases hs
  | drain comm =>
    cases hs
    exact h.drain comm
  | snapshotWindow comm boundary iter =>
    cases hs
    exact h.snapshotWindow comm boundary iter

end Gone

/-- A thread that is not tracked when a window begins is gone. -/
theorem OwnedIntervals.gone {sys sys' : OffCpuSystem} (h : OwnedIntervals sys) {comm : Comm} {boundary : ℕ}
    {iter : IterOrder} (hs : sys.step (.snapshotWindow comm boundary iter) = some sys') {tid : UInt32}
    (ht : tid ∉ sys'.collector.trackedTids) : Gone tid sys' := by
  have ho : OwnedIntervals sys' := by
    refine h.step ?_ hs
    trivial
  cases hs
  refine ⟨ho.receiver, ho.tracked, ht, fun hp => ?_, fun _ he => absurd he List.not_mem_nil,
    fun key hk => absurd hk (AList.notMem_empty _)⟩
  obtain ⟨interval, hi⟩ := Table.mem_iff.mp hp
  exact ht (Table.mem_of_lookup (ho.pending tid interval hi))

/-! ## Main theorem -/

/-- **Pending intervals are tracked.** In a run whose reconciliations are all
settled, every pending interval belongs to a tracked thread, under its process,
and no later window charges a thread that is not tracked when it begins, until
it is listed again. -/
theorem pending_tracked {current : Table UInt32 UInt32} {iter : IterOrder} {maxStacks maxThreads : ℕ}
    {kernel : OffCpuBpf} {collector : OffCpuCollector}
    (hattach : OffCpuCollector.attach current iter maxStacks maxThreads = .ok (kernel, collector))
    {as : List OffCpuStep} {sys : OffCpuSystem} (hg : Guarded OffCpuSystem.step SettledStep ⟨kernel, collector⟩ as)
    (hrun : run OffCpuSystem.step ⟨kernel, collector⟩ as = some sys) :
    PendingTracked sys.collector ∧
    ∀ comm boundary iter first, sys.step (.snapshotWindow comm boundary iter) = some first →
      ∀ tid, tid ∉ first.collector.trackedTids → ∀ bs later, (∀ b ∈ bs, Unlisted tid b) →
        run OffCpuSystem.step first bs = some later →
          ∀ comm boundary iter, ∀ key ∈ (later.window comm boundary iter).1, key.tid ≠ tid := by
  have ho : OwnedIntervals sys := run_inv OffCpuSystem.step (fun s a t h ha hs => OwnedIntervals.step h ha hs)
    (attach_owned hattach) hg hrun
  refine ⟨ho.pending, fun comm boundary iter first hfirst tid ht bs later hbs hlater => ?_⟩
  have hgone : Gone tid later := @run_inv _ _ OffCpuSystem.step (fun _ b => Unlisted tid b) _
    (fun s b t h hb hs => Gone.step h hb hs) bs first later (ho.gone hfirst ht)
    (guarded_of_forall OffCpuSystem.step fun b hb _ => hbs b hb) hlater
  exact fun comm boundary iter => hgone.window comm boundary iter

/-! ## Two threads, one of which exits -/

def threads (tids : List UInt32) : Table UInt32 UInt32 := tids.foldl (fun m tid => m.insert tid 1) ∅

def noComm : Comm := fun _ _ => none

def switchedOut : OffCpuStep :=
  .schedSwitch { prevTid := 7, nextTid := 0, outTimestamp := 100, inTimestamp := 100, stack := some [0x400000] }

/-- Thread 7 is switched out, in and out again, and exits when all of it has been drained. -/
def exitedThread : List OffCpuStep :=
  [switchedOut, .schedSwitch { prevTid := 0, nextTid := 7, outTimestamp := 150, inTimestamp := 150 }, switchedOut,
    .drain noComm, .applyThreads (threads [8]) .stored]

theorem pending_tracked_exitedThread : ∃ kernel collector sys,
    OffCpuCollector.attach (threads [7, 8]) .stored 10 10 = .ok (kernel, collector) ∧
    run OffCpuSystem.step ⟨kernel, collector⟩ exitedThread = some sys ∧
    PendingTracked sys.collector ∧
    ∀ comm boundary iter first, sys.step (.snapshotWindow comm boundary iter) = some first →
      ∀ tid, tid ∉ first.collector.trackedTids → ∀ bs later, (∀ b ∈ bs, Unlisted tid b) →
        run OffCpuSystem.step first bs = some later →
          ∀ comm boundary iter, ∀ key ∈ (later.window comm boundary iter).1, key.tid ≠ tid := by
  refine ⟨_, _, _, rfl, rfl, @pending_tracked (threads [7, 8]) .stored 10 10 _ _ rfl exitedThread _ ?_ rfl⟩
  refine guarded_cons _ trivial rfl (guarded_cons _ trivial rfl (guarded_cons _ trivial rfl ?_))
  refine guarded_cons _ trivial rfl
    (guarded_cons _ ⟨fun tid interval pid hi hp => ?_, fun tid event hl => ?_⟩ rfl trivial)
  · have ht : tid = 8 := by
      by_contra hne
      rw [show threads [8] = AList.insert 8 1 ∅ from rfl, Table.lookup_insert, if_neg hne] at hp
      cases hp
    subst ht
    cases hi
  · cases hl

/-- Thread 7 exits while its switch-out is queued; two windows follow. -/
def queuedExit : List OffCpuStep :=
  [switchedOut, .applyThreads (threads [8]) .stored, .snapshotWindow noComm 200 .stored]

/-- A switch-out that is queued when its thread goes leaves a pending interval
that every later window charges. -/
theorem queuedExit_stays_pending : ∃ kernel collector sys,
    OffCpuCollector.attach (threads [7, 8]) .stored 10 10 = .ok (kernel, collector) ∧
    run OffCpuSystem.step ⟨kernel, collector⟩ queuedExit = some sys ∧
    sys.collector.trackedTids.lookup 7 = none ∧
    sys.collector.pending.lookup 7 = some { pid := 1, started := 200, stack := .ofAddresses [0x400000] } ∧
    (sys.window noComm 300 .stored).1.lookup
      { stack := .ofAddresses [0x400000], pid := 1, tid := 7, threadName := none } =
        some { events := 0, nanoseconds := 100 } :=
  ⟨_, _, _, rfl, rfl, rfl, rfl, rfl⟩

end RustProfile
