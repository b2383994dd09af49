import RustProfile.Cgroup
import RustProfile.EventSound

/-!
# The pending events of a cgroup

A sorter never holds more than its share, and there are never more active
processes than the threads that the collector accepts. So the shares add up to
at most `maxPendingEvents`, whichever of the two limits is the smaller.
-/

namespace RustProfile

open Queues

/-! ## One sorter -/

namespace PerfEventSorter

def Within (sorter : PerfEventSorter) (limit : ℕ) : Prop :=
  sorter.maxPending = limit ∧ ∃ held, Holds sorter held ∧ held.length ≤ limit

variable {sorter : PerfEventSorter} {limit : ℕ}

theorem within_new (reorderNanos limit : ℕ) : Within (new reorderNanos limit) limit :=
  ⟨rfl, [], holds_new reorderNanos limit, Nat.zero_le _⟩

theorem Within.push (h : sorter.Within limit) (sample : PerfSample) : (sorter.push sample).2.Within limit := by
  obtain ⟨hmax, held, hheld, -⟩ := h
  obtain ⟨-, hkept, -⟩ := advance_spec hheld sample
  have hpushed := (forceFlush_spec hkept).2.1
  refine ⟨(push_frame hheld sample).2.1.trans hmax, _, hpushed, ?_⟩
  rw [← hpushed.length, ← hmax]
  exact length_push hheld sample

theorem Within.pushAll : ∀ (samples : List PerfSample) {sorter : PerfEventSorter}, sorter.Within limit →
    (sorter.pushAll samples).2.Within limit
  | [], _, h => h
  | sample :: samples, _, h => Within.pushAll samples (h.push sample)

theorem Within.flush (h : sorter.Within limit) : sorter.flush.2.Within limit := by
  obtain ⟨hmax, held, hheld, -⟩ := h
  obtain ⟨-, hempty, hsame⟩ := flush_spec hheld
  exact ⟨hsame.maxPending.trans hmax, [], hempty, Nat.zero_le _⟩

theorem Within.takeStats (h : sorter.Within limit) : sorter.takeStats.2.Within limit := by
  obtain ⟨hmax, held, hheld, hlength⟩ := h
  exact ⟨hmax, held, ⟨hheld.keyed, hheld.items, hheld.length, Nat.zero_le _⟩, hlength⟩

theorem Within.items_le (h : sorter.Within limit) : (items sorter.pending).length ≤ limit := by
  obtain ⟨-, held, hheld, hlength⟩ := h
  rw [hheld.items]
  exact hlength

end PerfEventSorter

/-! ## Ingesting -/

section
variable {δ ω : Type} {args : CgroupArgs} {comm : CommReader ω} {limit : ℕ}

theorem ready_within {call : IngestCall δ} (h : call.sorter.Within limit) : call.ready.2.Within limit := by
  have hpushed := h.pushAll call.batch.samples
  unfold IngestCall.ready
  dsimp only
  split
  · exact hpushed.flush
  · exact hpushed

/-- Whatever the rings give, and also when ingesting it fails. -/
theorem CpuProcessCollector.ingest_within {process : CpuProcessCollector δ} (h : process.sorter.Within limit)
    (flush : Bool) (drained : Except String PerfBatch) (window : CpuWindow) (world : ω) :
    (process.ingest args comm flush drained window world).2.1.sorter.Within limit := by
  unfold CpuProcessCollector.ingest
  cases drained with
  | error message => exact h
  | ok batch => exact ready_within h

theorem ingestEach_within (flush : Bool) : ∀ (processes : List (CpuProcessCollector δ))
    (drained : List (Except String PerfBatch)) (window : CpuWindow) (world : ω),
    (∀ process ∈ processes, process.sorter.Within limit) →
      ∀ process ∈ (ingestEach args comm flush processes drained window world).2.1, process.sorter.Within limit
  | [], _, _, _, _ => fun _ hmem => absurd hmem List.not_mem_nil
  | process :: processes, drained, window, world, h => by
    obtain ⟨hfirst, hrest⟩ := List.forall_mem_cons.mp h
    have hingested : ∀ drained window world,
        (process.ingest args comm flush drained window world).2.1.sorter.Within limit :=
      CpuProcessCollector.ingest_within hfirst flush
    unfold ingestEach
    dsimp only
    split
    · exact List.forall_mem_cons.mpr ⟨hingested _ window world, hrest⟩
    · exact List.forall_mem_cons.mpr ⟨hingested _ window world, ingestEach_within flush processes _ _ _ hrest⟩

end

namespace CpuCollector

section
variable {δ ω : Type} {args : CgroupArgs} {comm : CommReader ω} {self : CpuCollector δ}

/-- The active processes were listed together, with no more threads than the limit; none holds more than its share. -/
structure Budgeted (args : CgroupArgs) (collector : CpuCollector δ) : Prop where
  listed : ∃ pids : List Int32, pids.length ≤ min args.maxThreads args.maxPendingEvents ∧
    ∀ pid ∈ collector.processes, pid ∈ pids
  within : ∀ pid process, collector.processes.lookup pid = some process → process.sorter.Within (perProcessPending args)

theorem budgeted_empty : Budgeted args ({} : CpuCollector δ) :=
  ⟨⟨[], Nat.zero_le _, fun pid hmem => absurd hmem (AList.notMem_empty pid)⟩, fun _ _ h => by cases h⟩

theorem foldl_insert_spec {P : CpuProcessCollector δ → Prop} : ∀ (entries : List (Int32 × CpuProcessCollector δ))
    {table : Table Int32 (CpuProcessCollector δ)}, (∀ entry ∈ entries, entry.1 ∈ table ∧ P entry.2) →
    (∀ pid process, table.lookup pid = some process → P process) →
      (∀ pid ∈ entries.foldl (fun table entry => table.insert entry.1 entry.2) table, pid ∈ table) ∧
        ∀ pid process, (entries.foldl (fun table entry => table.insert entry.1 entry.2) table).lookup pid =
          some process → P process
  | [], _, _, h => ⟨fun _ hmem => hmem, h⟩
  | entry :: entries, table, hentries, h => by
    obtain ⟨⟨hkey, hp⟩, hrest⟩ := List.forall_mem_cons.mp hentries
    have hinsert : ∀ pid process, (table.insert entry.1 entry.2).lookup pid = some process → P process := by
      intro pid process hl
      rcases Table.lookup_insert_eq_some.mp hl with ⟨-, rfl⟩ | ⟨-, hl⟩
      · exact hp
      · exact h pid process hl
    obtain ⟨hkeys, hwithin⟩ := foldl_insert_spec entries
      (fun e he => ⟨(AList.mem_insert _).mpr (Or.inr (hrest e he).1), (hrest e he).2⟩) hinsert
    refine ⟨fun pid hmem => ?_, hwithin⟩
    rcases (AList.mem_insert _).mp (hkeys pid hmem) with rfl | hmem
    · exact hkey
    · exact hmem

theorem Budgeted.ingestActive (h : Budgeted args self) (flush : Bool) (drained : List (Except String PerfBatch))
    (iter : IterOrder) (window : CpuWindow) (world : ω) :
    Budgeted args (self.ingestActive args comm flush drained iter window world).2.1 := by
  have hentry : ∀ entry ∈ iter.order self.processes.entries,
      entry.1 ∈ self.processes ∧ entry.2.sorter.Within (perProcessPending args) := by
    intro entry hmem
    have hl := Table.mem_entries.mp ((iter.perm _).mem_iff.mp hmem)
    exact ⟨Table.mem_of_lookup hl, h.within entry.1 entry.2 hl⟩
  have hingested : ∀ process ∈ (ingestEach args comm flush ((iter.order self.processes.entries).map (·.2)) drained
      window world).2.1, process.sorter.Within (perProcessPending args) :=
    ingestEach_within flush _ drained window world (List.forall_mem_map.mpr fun entry hmem => (hentry entry hmem).2)
  obtain ⟨hkeys, hwithin⟩ := @foldl_insert_spec δ (fun process => process.sorter.Within (perProcessPending args))
    (((iter.order self.processes.entries).map (·.1)).zip
      (ingestEach args comm flush ((iter.order self.processes.entries).map (·.2)) drained window world).2.1)
    self.processes
    (fun entry hmem => by
      obtain ⟨hkey, hprocess⟩ := List.of_mem_zip hmem
      obtain ⟨e, he, hpid⟩ := List.mem_map.mp hkey
      exact ⟨hpid ▸ (hentry e he).1, hingested _ hprocess⟩)
    h.within
  obtain ⟨pids, hlength, hpids⟩ := h.listed
  exact ⟨⟨pids, hlength, fun pid hmem => hpids pid (hkeys pid hmem)⟩, hwithin⟩

/-- Ingestion keeps the budget; when it completes, no process is retired. -/
theorem Budgeted.ingest (h : Budgeted args self) (flush : Bool) (active : List (Except String PerfBatch))
    (retired : List PerfBatch) (iter : IterOrder) (window : CpuWindow) (world : ω) :
    Budgeted args (self.ingest args comm flush active retired iter window world).2.1 ∧
      ((self.ingest args comm flush active retired iter window world).1 = none →
        (self.ingest args comm flush active retired iter window world).2.1.retired = []) := by
  have hactive : Budgeted args (self.ingestActive args comm flush active iter window world).2.1 :=
    h.ingestActive flush active iter window world
  unfold CpuCollector.ingest
  dsimp only
  split
  · rename_i herror
    refine ⟨hactive, fun hnone => ?_⟩
    rw [hnone] at herror
    cases herror
  · unfold ingestRetired
    dsimp only
    refine ⟨⟨hactive.listed, hactive.within⟩, fun hnone => ?_⟩
    rw [hnone]
    rfl

/-! ## Reconciling -/

theorem lookup_retire (self : CpuCollector δ) (pid pid' : Int32) :
    (self.retire pid).processes.lookup pid' = if pid' = pid then none else self.processes.lookup pid' := by
  unfold retire
  cases hl : self.processes.lookup pid with
  | some process => exact Table.lookup_erase _ _ _
  | none =>
    dsimp only
    split
    · rename_i hpid
      rw [hpid, hl]
    · rfl

theorem lookup_foldl_retire : ∀ (exited : List Int32) (self : CpuCollector δ) (pid : Int32),
    (exited.foldl retire self).processes.lookup pid = if pid ∈ exited then none else self.processes.lookup pid
  | [], _, _ => rfl
  | first :: exited, self, pid => by
    rw [List.foldl_cons, lookup_foldl_retire exited, lookup_retire]
    by_cases hfirst : pid = first
    · simp [hfirst]
    · simp [hfirst]

/-- A reconciliation adds only processes that it meets, and with their own share. -/
theorem reconcileEach_spec (answers : ReconcileAnswers δ) : ∀ (pids : List Int32)
    {processes : Table Int32 (CpuProcessCollector δ)},
    (∀ pid process, processes.lookup pid = some process → process.sorter.Within (perProcessPending args)) →
      (∀ pid ∈ (reconcileEach args answers pids processes).2, pid ∈ processes ∨ pid ∈ pids) ∧
        ∀ pid process, (reconcileEach args answers pids processes).2.lookup pid = some process →
          process.sorter.Within (perProcessPending args)
  | [], _, h => ⟨fun _ hmem => Or.inl hmem, h⟩
  | first :: pids, processes, h => by
    have hinsert : ∀ process : CpuProcessCollector δ, process.sorter.Within (perProcessPending args) →
        ∀ pid other, (processes.insert first process).lookup pid = some other →
          other.sorter.Within (perProcessPending args) := by
      intro process hwithin pid other hl
      rcases Table.lookup_insert_eq_some.mp hl with ⟨-, rfl⟩ | ⟨-, hl⟩
      · exact hwithin
      · exact h pid other hl
    have hkeys : ∀ process : CpuProcessCollector δ, ∀ pid ∈ processes.insert first process,
        pid ∈ processes ∨ pid ∈ first :: pids := by
      intro process pid hmem
      rcases (AList.mem_insert _).mp hmem with rfl | hmem
      · exact Or.inr List.mem_cons_self
      · exact Or.inl hmem
    -- Each branch that goes on has inserted one collector; the rest is the same in all of them.
    have hrest : ∀ process : CpuProcessCollector δ, process.sorter.Within (perProcessPending args) →
        (∀ pid ∈ (reconcileEach args answers pids (processes.insert first process)).2,
            pid ∈ processes ∨ pid ∈ first :: pids) ∧
          ∀ pid other, (reconcileEach args answers pids (processes.insert first process)).2.lookup pid = some other →
            other.sorter.Within (perProcessPending args) := by
      intro process hwithin
      obtain ⟨hadded, hkept⟩ := reconcileEach_spec answers pids (hinsert process hwithin)
      refine ⟨fun pid hmem => ?_, hkept⟩
      rcases hadded pid hmem with hmem | hmem
      · exact hkeys process pid hmem
      · exact Or.inr (List.mem_cons_of_mem _ hmem)
    unfold reconcileEach
    dsimp only
    split
    · rename_i process hl
      have hwithin := h first process hl
      split
      · exact ⟨hkeys _, hinsert _ hwithin⟩
      · exact hrest _ hwithin
    · split
      · exact hrest _ (PerfEventSorter.within_new _ _)
      · split
        · exact ⟨fun _ hmem => Or.inl hmem, h⟩
        · obtain ⟨hadded, hkept⟩ := reconcileEach_spec answers pids h
          refine ⟨fun pid hmem => ?_, hkept⟩
          exact (hadded pid hmem).imp_right (List.mem_cons_of_mem _)

theorem Budgeted.reconcileWithArgs (h : Budgeted args self) {snapshot : CgroupThreadSnapshot}
    (hsize : snapshot.totalThreads ≤ min args.maxThreads args.maxPendingEvents →
      snapshot.threadsByPid.keys.length ≤ min args.maxThreads args.maxPendingEvents)
    (answers : ReconcileAnswers δ) (iter : IterOrder) :
    Budgeted args (self.reconcileWithArgs args snapshot answers iter).2 := by
  unfold CpuCollector.reconcileWithArgs
  dsimp only
  split
  · exact h
  · rename_i hlimit
    have hretired := lookup_foldl_retire (iter.order (self.processes.keys.filter (· ∉ snapshot.threadsByPid))) self
    obtain ⟨hadded, hkept⟩ := @reconcileEach_spec δ args answers (iter.order snapshot.threadsByPid.keys)
      ((iter.order (self.processes.keys.filter (· ∉ snapshot.threadsByPid))).foldl retire self).processes
      (fun pid process hl => by
        rw [hretired] at hl
        split at hl
        · cases hl
        · exact h.within pid process hl)
    refine ⟨⟨snapshot.threadsByPid.keys, hsize (not_lt.mp hlimit), fun pid hmem => ?_⟩, hkept⟩
    rcases hadded pid hmem with hmem | hmem
    · by_cases hlisted : pid ∈ snapshot.threadsByPid
      · exact hlisted
      · obtain ⟨process, hl⟩ := Table.mem_iff.mp hmem
        rw [hretired] at hl
        have hexited : pid ∈ iter.order (self.processes.keys.filter (· ∉ snapshot.threadsByPid)) ∨
            pid ∉ self.processes := by
          by_cases hactive : pid ∈ self.processes
          · left
            refine (iter.perm _).mem_iff.mpr (List.mem_filter.mpr ⟨hactive, ?_⟩)
            exact decide_eq_true hlisted
          · exact Or.inr hactive
        rcases hexited with hexited | hgone
        · rw [if_pos hexited] at hl
          cases hl
        · rw [Table.notMem_iff.mp hgone] at hl
          split at hl <;> cases hl
    · exact (iter.perm _).mem_iff.mp hmem

end

end CpuCollector

/-! ## Snapshots -/

theorem CgroupThreadSnapshot.read_size : ∀ {listed : List (Int32 × ThreadsRead)} {self snapshot : CgroupThreadSnapshot},
    (∀ pid tids, (pid, ThreadsRead.threads tids) ∈ listed → tids.Nonempty) →
    min self.threadsByPid.size u64Max ≤ self.totalThreads → read listed self = .ok snapshot →
      min snapshot.threadsByPid.size u64Max ≤ snapshot.totalThreads
  | [], self, snapshot, _, hsize, h => by
    cases h
    exact hsize
  | (pid, .threads tids) :: listed, self, snapshot, hpopulated, hsize, h => by
    refine read_size (fun pid tids hmem => hpopulated pid tids (List.mem_cons_of_mem _ hmem)) ?_ h
    have hcard := (hpopulated pid tids List.mem_cons_self).card_pos
    have hinsert : (self.threadsByPid.insert pid tids).size ≤ self.threadsByPid.size + 1 := by
      by_cases hmem : pid ∈ self.threadsByPid
      · rw [Table.size_insert_of_mem hmem]
        exact Nat.le_succ _
      · rw [Table.size_insert_of_notMem hmem]
    dsimp only
    unfold saturatingAddU64 Sat.add
    omega
  | (_, .vanished) :: listed, self, snapshot, hpopulated, hsize, h =>
    read_size (fun pid tids hmem => hpopulated pid tids (List.mem_cons_of_mem _ hmem)) hsize h
  | (_, .failed _) :: _, _, _, _, _, h => by cases h

theorem keys_lt_u64Max {V : Type} (table : Table Int32 V) : table.keys.length < u64Max := by
  have hnodup : (table.keys.map fun pid => pid.toBitVec.toFin).Nodup :=
    table.keys_nodup.map fun _ _ h => Int32.toBitVec_inj.mp (BitVec.toFin_inj.mp h)
  have hcard := hnodup.length_le_card
  rw [List.length_map, Fintype.card_fin] at hcard
  exact hcard.trans_lt (by decide)

/-! ## Any order of calls -/

section
variable {δ ω : Type} {args : CgroupArgs} {comm : CommReader ω} {self : CpuCollector δ}

open CpuCollector

theorem CpuCollector.Budgeted.refreshRoot (h : Budgeted args self) (pid : Int32) (unwind : ProcessUnwind δ) :
    Budgeted args (self.refreshRoot pid unwind) := by
  obtain ⟨pids, hlength, hpids⟩ := h.listed
  unfold CpuCollector.refreshRoot
  split
  · rename_i process hl
    refine ⟨⟨pids, hlength, fun pid' hmem => ?_⟩, fun pid' other hother => ?_⟩
    · rcases (AList.mem_insert _).mp hmem with rfl | hmem
      · exact hpids _ (Table.mem_of_lookup hl)
      · exact hpids _ hmem
    · rcases Table.lookup_insert_eq_some.mp hother with ⟨-, rfl⟩ | ⟨-, hother⟩
      · exact h.within pid process hl
      · exact h.within pid' other hother
  · exact h

theorem CpuCollector.Budgeted.takeSorterStats (h : Budgeted args self) : Budgeted args self.takeSorterStats.2 := by
  obtain ⟨pids, hlength, hpids⟩ := h.listed
  have hlookup : ∀ pid, self.takeSorterStats.2.processes.lookup pid =
      (self.processes.lookup pid).map CpuProcessCollector.takeStats := Table.lookup_mapValues _ _
  refine ⟨⟨pids, hlength, fun pid hmem => hpids pid ?_⟩, fun pid process hl => ?_⟩
  · obtain ⟨process, hl⟩ := Table.mem_iff.mp hmem
    rw [hlookup] at hl
    obtain ⟨before, hbefore, -⟩ := Option.map_eq_some_iff.mp hl
    exact Table.mem_of_lookup hbefore
  · rw [hlookup] at hl
    obtain ⟨before, hbefore, rfl⟩ := Option.map_eq_some_iff.mp hl
    exact (h.within pid before hbefore).takeStats

theorem CpuCollector.Budgeted.call (h : Budgeted args self) {c : CgroupCall δ ω} (hc : c.Populated) :
    Budgeted args (self.call args comm c).2 := by
  cases c with
  | reconcile listed answers iter =>
    unfold CpuCollector.call
    dsimp only
    split
    · exact h
    · rename_i snapshot hread
      have hsize := CgroupThreadSnapshot.read_size hc (Nat.zero_le _) hread
      have hkeys : snapshot.threadsByPid.size = snapshot.threadsByPid.keys.length := (List.length_map _).symm
      have hlt := keys_lt_u64Max snapshot.threadsByPid
      exact h.reconcileWithArgs (by omega) answers iter
  | waitAndIngest waited active retired iter window world =>
    exact (h.ingest false (waited :: active.map .ok) retired iter window world).1
  | drainAndIngest active retired iter window world =>
    exact (h.ingest true (active.map .ok) retired iter window world).1
  | refreshRoot pid unwind => exact h.refreshRoot pid unwind
  | takeSorterStats => exact h.takeSorterStats

theorem CpuCollector.Budgeted.calls : ∀ {l : List (CgroupCall δ ω)} {self : CpuCollector δ}, Budgeted args self →
    (∀ c ∈ l, c.Populated) → Budgeted args (self.calls args comm l)
  | [], _, h, _ => h
  | c :: l, self, h, hl => by
    obtain ⟨hc, hl⟩ := List.forall_mem_cons.mp hl
    exact Budgeted.calls (l := l) (h.call hc) hl

/-- The shares of as many processes as the limit admits. -/
theorem shares_le (args : CgroupArgs) {n : ℕ} (h : n ≤ min args.maxThreads args.maxPendingEvents) :
    n * perProcessPending args ≤ args.maxPendingEvents := by
  unfold perProcessPending
  obtain ⟨hthreads, hpending⟩ := le_min_iff.mp h
  by_cases hone : args.maxPendingEvents / max args.maxThreads 1 ≤ 1
  · rw [max_eq_right hone, Nat.mul_one]
    exact hpending
  · rw [max_eq_left (Nat.le_of_not_le hone)]
    calc n * (args.maxPendingEvents / max args.maxThreads 1)
        ≤ max args.maxThreads 1 * (args.maxPendingEvents / max args.maxThreads 1) :=
          Nat.mul_le_mul_right _ (hthreads.trans (le_max_left _ _))
      _ ≤ args.maxPendingEvents := Nat.mul_div_le _ _

theorem CpuCollector.Budgeted.pending_le (h : Budgeted args self) (hretired : self.retired = []) :
    self.pendingSamples ≤ args.maxPendingEvents := by
  obtain ⟨pids, hlength, hpids⟩ := h.listed
  have hsize : self.processes.size ≤ pids.length := by
    have hsub := (List.subperm_of_subset self.processes.keys_nodup (fun pid hmem => hpids pid hmem)).length_le
    rwa [show self.processes.keys.length = self.processes.size from List.length_map _] at hsub
  unfold pendingSamples
  rw [hretired, List.map_nil, List.sum_nil, Nat.add_zero]
  refine (Table.sumOver_le _ fun pid process hl => (h.within pid process hl).items_le).trans ?_
  exact shares_le args (hsize.trans hlength)

/-- **The bound is global.** Whatever calls came before, with whatever answers,
an ingestion that completes leaves at most `maxPendingEvents` samples pending. -/
theorem ingest_pending_le (args : CgroupArgs) (comm : CommReader ω) {l : List (CgroupCall δ ω)}
    (hl : ∀ c ∈ l, c.Populated) {c : CgroupCall δ ω} (hc : c.Ingests)
    (hdone : (((({} : CpuCollector δ).calls args comm l)).call args comm c).1 = none) :
    (((({} : CpuCollector δ).calls args comm l)).call args comm c).2.pendingSamples ≤ args.maxPendingEvents := by
  have hbefore : Budgeted args (({} : CpuCollector δ).calls args comm l) := budgeted_empty.calls hl
  cases c with
  | waitAndIngest waited active retired iter window world =>
    obtain ⟨hafter, hretired⟩ := hbefore.ingest false (waited :: active.map .ok) retired iter window world
    exact hafter.pending_le (hretired hdone)
  | drainAndIngest active retired iter window world =>
    obtain ⟨hafter, hretired⟩ := hbefore.ingest true (active.map .ok) retired iter window world
    exact hafter.pending_le (hretired hdone)
  | reconcile listed answers iter => exact hc.elim
  | refreshRoot pid unwind => exact hc.elim
  | takeSorterStats => exact hc.elim

end

def twoThreads : CgroupArgs where
  pid := 1
  maxThreads := 2
  maxPendingEvents := 3
  eventReorderNanos := 1000
  allowPartial := false
  frequency := exampleFrequency

def twoProcesses : CgroupCall Unit Unit :=
  .reconcile [(1, .threads {1}), (2, .threads {2})]
    { reconciled := fun _ => (⟨none, ExecutableRanges.fromMaps [], ()⟩, none)
      started := fun _ => .ok ⟨none, ExecutableRanges.fromMaps [], ()⟩
      alive := fun _ => true } .stored

def samplesAt (times : List ℕ) : PerfBatch :=
  ⟨times.map fun time => { pid := 1, tid := 1, time := time, period := 10, data := .framePointer [4096] }, 0, 0⟩

def noNames : CommReader Unit := ⟨fun _ _ _ => (none, ())⟩

theorem ingest_pending_le_twoProcesses :
    (((({} : CpuCollector Unit).calls twoThreads noNames [twoProcesses])).call twoThreads noNames
      (.waitAndIngest (.ok (samplesAt [100, 200])) [samplesAt [150]] [] .stored (.new 1 8 8 false 0) ())
        ).2.pendingSamples ≤ 3 := by
  refine ingest_pending_le twoThreads noNames (List.forall_mem_singleton.mpr ?_) trivial (by decide +kernel)
  intro pid tids hmem
  simp only [List.mem_cons, Prod.mk.injEq, List.not_mem_nil, or_false] at hmem
  rcases hmem with ⟨-, h⟩ | ⟨-, h⟩ <;> cases h <;> exact Finset.singleton_nonempty _

end RustProfile
