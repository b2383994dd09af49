import RustProfile.CgroupSound

/-!
# The forced flushes of a cgroup

Every sorter counts the samples that its cap pops. The statistics add up the
counters that are left when they are taken, so what a retired process counted is
in them only as long as that process is not forgotten.
-/

namespace RustProfile

/-! ## What the cap pops -/

/-- The samples that the cap pops while the samples are pushed. -/
def PerfEventSorter.forcedBy (sorter : PerfEventSorter) : List PerfSample → List PerfSample
  | [] => []
  | sample :: samples => (SorterOp.push sample).forced sorter ++ (sorter.push sample).2.forcedBy samples

section
variable {δ ω : Type} (args : CgroupArgs) (comm : CommReader ω)

def CpuProcessCollector.forced (self : CpuProcessCollector δ) (drained : Except String PerfBatch) : List PerfSample :=
  match drained with
  | .error _ => []
  | .ok batch => self.sorter.forcedBy batch.samples

def forcedEach (flush : Bool) : List (CpuProcessCollector δ) → List (Except String PerfBatch) → CpuWindow → ω →
    List PerfSample
  | [], _, _, _ => []
  | process :: processes, drained, window, world =>
    let result := process.ingest args comm flush (drained.head?.getD (.ok ⟨[], 0, 0⟩)) window world
    process.forced (drained.head?.getD (.ok ⟨[], 0, 0⟩)) ++
      match result.1 with
      | some _ => []
      | none => forcedEach flush processes drained.tail result.2.2.1 result.2.2.2

def NoneForced : List (CpuProcessCollector δ) → List PerfBatch → Prop
  | [], _ => True
  | process :: processes, batches =>
    (process.sorter.forcedFlushes = 0 ∧ process.sorter.forcedBy (batches.head?.getD ⟨[], 0, 0⟩).samples = []) ∧
      NoneForced processes batches.tail

end

namespace CpuCollector

section
variable {δ ω : Type} (args : CgroupArgs) (comm : CommReader ω) (self : CpuCollector δ)

def forcedIngest (flush : Bool) (active : List (Except String PerfBatch)) (retired : List PerfBatch) (iter : IterOrder)
    (window : CpuWindow) (world : ω) : List PerfSample :=
  let ingested := self.ingestActive args comm flush active iter window world
  forcedEach args comm flush ((iter.order self.processes.entries).map (·.2)) active window world ++
    if ingested.1.isSome then []
    else forcedEach args comm true ingested.2.1.retired (retired.map .ok) ingested.2.2.1 ingested.2.2.2

def forced : CgroupCall δ ω → List PerfSample
  | .waitAndIngest waited active retired iter window world =>
    self.forcedIngest args comm false (waited :: active.map .ok) retired iter window world
  | .drainAndIngest active retired iter window world =>
    self.forcedIngest args comm true (active.map .ok) retired iter window world
  | _ => []

/-- The call does not forget a process with forced flushes: either it fails, or no retired process has any. -/
def KeepsForced (c : CgroupCall δ ω) : Prop :=
  (self.call args comm c).1 = none → match c with
    | .waitAndIngest _ _ retired _ _ _ => NoneForced self.retired retired
    | .drainAndIngest _ retired _ _ _ => NoneForced self.retired retired
    | _ => True

end

section
variable {δ ω : Type} (args : CgroupArgs) (comm : CommReader ω)

/-- The samples that the caps pop in the calls. -/
def forcedIn (self : CpuCollector δ) : List (CgroupCall δ ω) → List PerfSample
  | [] => []
  | c :: l => self.forced args comm c ++ (self.call args comm c).2.forcedIn l

def KeepsAll (self : CpuCollector δ) : List (CgroupCall δ ω) → Prop
  | [] => True
  | c :: l => self.KeepsForced args comm c ∧ (self.call args comm c).2.KeepsAll l

end

end CpuCollector

/-! ## Counters and what they count -/

/-- From `before` a counter has gone to `after` by counting `n`, unless it met the top. -/
def Adds (before n after : ℕ) : Prop := after ≤ before + n ∧ (before + n ≤ u64Max → after = before + n)

theorem adds_zero (n : ℕ) : Adds n 0 n := ⟨le_refl _, fun _ => rfl⟩

theorem Adds.trans {a b c m n : ℕ} (h : Adds a m b) (h' : Adds b n c) : Adds a (m + n) c := by
  obtain ⟨hle, heq⟩ := h
  obtain ⟨hle', heq'⟩ := h'
  refine ⟨by omega, fun htop => ?_⟩
  have hb := heq (by omega)
  rw [heq' (by omega), hb, Nat.add_assoc]

theorem Adds.add {a b c d m n : ℕ} (h : Adds a m b) (h' : Adds c n d) : Adds (a + c) (m + n) (b + d) := by
  obtain ⟨hle, heq⟩ := h
  obtain ⟨hle', heq'⟩ := h'
  refine ⟨by omega, fun htop => ?_⟩
  rw [heq (by omega), heq' (by omega)]
  omega

theorem adds_min (a n : ℕ) : Adds a n (min (a + n) u64Max) := ⟨min_le_left _ _, fun htop => min_eq_left htop⟩

namespace PerfEventSorter

def Sorted (sorter : PerfEventSorter) : Prop := ∃ held, Holds sorter held

variable {sorter : PerfEventSorter}

theorem Sorted.push (h : sorter.Sorted) (sample : PerfSample) : (sorter.push sample).2.Sorted := by
  obtain ⟨held, hheld⟩ := h
  obtain ⟨-, hkept, -⟩ := advance_spec hheld sample
  exact ⟨_, (forceFlush_spec hkept).2.1⟩

theorem forcedFlushes_push (h : sorter.Sorted) (sample : PerfSample) :
    (sorter.push sample).2.forcedFlushes =
      min (sorter.forcedFlushes + ((SorterOp.push sample).forced sorter).length) u64Max := by
  obtain ⟨held, hheld⟩ := h
  exact (SorterOp.push sample).forcedFlushes_run hheld sorter.forcedFlushes (min_eq_left hheld.counter).symm (by simp)

theorem pushAll_adds : ∀ (samples : List PerfSample) {sorter : PerfEventSorter}, sorter.Sorted →
    (sorter.pushAll samples).2.Sorted ∧
      Adds sorter.forcedFlushes (sorter.forcedBy samples).length (sorter.pushAll samples).2.forcedFlushes
  | [], sorter, h => ⟨h, adds_zero sorter.forcedFlushes⟩
  | sample :: samples, sorter, h => by
    obtain ⟨hsorted, hrest⟩ := pushAll_adds samples (h.push sample)
    refine ⟨hsorted, ?_⟩
    have hfirst := adds_min sorter.forcedFlushes ((SorterOp.push sample).forced sorter).length
    rw [← forcedFlushes_push h sample] at hfirst
    rw [forcedBy, List.length_append]
    exact hfirst.trans hrest

theorem flush_sorted (h : sorter.Sorted) :
    sorter.flush.2.Sorted ∧ sorter.flush.2.forcedFlushes = sorter.forcedFlushes := by
  obtain ⟨held, hheld⟩ := h
  obtain ⟨-, hempty, hsame⟩ := flush_spec hheld
  exact ⟨⟨[], hempty⟩, hsame.forcedFlushes⟩

end PerfEventSorter

section
variable {δ ω : Type} {args : CgroupArgs} {comm : CommReader ω}

theorem ready_adds {call : IngestCall δ} (h : call.sorter.Sorted) : call.ready.2.Sorted ∧
    Adds call.sorter.forcedFlushes (call.sorter.forcedBy call.batch.samples).length call.ready.2.forcedFlushes := by
  obtain ⟨hsorted, hadds⟩ := PerfEventSorter.pushAll_adds call.batch.samples h
  unfold IngestCall.ready
  dsimp only
  split
  · obtain ⟨hflushed, hsame⟩ := PerfEventSorter.flush_sorted hsorted
    exact ⟨hflushed, hsame.symm ▸ hadds⟩
  · exact ⟨hsorted, hadds⟩

/-- Also when it fails, since the samples are pushed first. -/
theorem CpuProcessCollector.ingest_adds {process : CpuProcessCollector δ} (h : process.sorter.Sorted) (flush : Bool)
    (drained : Except String PerfBatch) (window : CpuWindow) (world : ω) :
    (process.ingest args comm flush drained window world).2.1.sorter.Sorted ∧
      Adds process.sorter.forcedFlushes (process.forced drained).length
        (process.ingest args comm flush drained window world).2.1.sorter.forcedFlushes := by
  unfold CpuProcessCollector.ingest CpuProcessCollector.forced
  cases drained with
  | error message => exact ⟨h, adds_zero _⟩
  | ok batch => exact ready_adds h

def countedBy (processes : List (CpuProcessCollector δ)) : ℕ :=
  (processes.map fun process => process.sorter.forcedFlushes).sum

@[simp] theorem countedBy_cons (process : CpuProcessCollector δ) (processes : List (CpuProcessCollector δ)) :
    countedBy (process :: processes) = process.sorter.forcedFlushes + countedBy processes := rfl

theorem ingestEach_adds (flush : Bool) : ∀ (processes : List (CpuProcessCollector δ))
    (drained : List (Except String PerfBatch)) (window : CpuWindow) (world : ω),
    (∀ process ∈ processes, process.sorter.Sorted) →
      (∀ process ∈ (ingestEach args comm flush processes drained window world).2.1, process.sorter.Sorted) ∧
        (ingestEach args comm flush processes drained window world).2.1.length = processes.length ∧
        Adds (countedBy processes) (forcedEach args comm flush processes drained window world).length
          (countedBy (ingestEach args comm flush processes drained window world).2.1)
  | [], _, _, _, _ => ⟨fun _ hmem => absurd hmem List.not_mem_nil, rfl, adds_zero 0⟩
  | process :: processes, drained, window, world, h => by
    obtain ⟨hfirst, hrest⟩ := List.forall_mem_cons.mp h
    obtain ⟨hsorted, hadds⟩ := @CpuProcessCollector.ingest_adds δ ω args comm process hfirst flush
      (drained.head?.getD (.ok ⟨[], 0, 0⟩)) window world
    unfold ingestEach forcedEach
    dsimp only
    cases herror : (process.ingest args comm flush (drained.head?.getD (.ok ⟨[], 0, 0⟩)) window world).1 with
    | some message =>
      refine ⟨List.forall_mem_cons.mpr ⟨hsorted, hrest⟩, rfl, ?_⟩
      rw [List.length_append, countedBy_cons, countedBy_cons]
      exact hadds.add (adds_zero _)
    | none =>
      obtain ⟨hothers, hlength, hcounted⟩ := ingestEach_adds flush processes drained.tail
        (process.ingest args comm flush (drained.head?.getD (.ok ⟨[], 0, 0⟩)) window world).2.2.1
        (process.ingest args comm flush (drained.head?.getD (.ok ⟨[], 0, 0⟩)) window world).2.2.2 hrest
      refine ⟨List.forall_mem_cons.mpr ⟨hsorted, hothers⟩, congrArg (· + 1) hlength, ?_⟩
      rw [List.length_append, countedBy_cons, countedBy_cons]
      exact hadds.add hcounted

/-- When all processes are ingested, what was counted before and now is nothing just if none has forced any. -/
theorem ingestEach_noneForced (flush : Bool) : ∀ (processes : List (CpuProcessCollector δ)) (batches : List PerfBatch)
    (window : CpuWindow) (world : ω), (ingestEach args comm flush processes (batches.map .ok) window world).1 = none →
      (countedBy processes + (forcedEach args comm flush processes (batches.map .ok) window world).length = 0 ↔
        NoneForced processes batches)
  | [], _, _, _, _ => by simp [countedBy, forcedEach, NoneForced]
  | process :: processes, batches, window, world, h => by
    have hhead : ((batches.map (Except.ok (ε := String))).head?.getD (.ok ⟨[], 0, 0⟩)) =
        .ok (batches.head?.getD ⟨[], 0, 0⟩) := by cases batches <;> rfl
    unfold ingestEach at h
    unfold forcedEach NoneForced
    dsimp only at h ⊢
    cases herror : (process.ingest args comm flush ((batches.map .ok).head?.getD (.ok ⟨[], 0, 0⟩)) window world).1 with
    | some message =>
      rw [herror] at h
      cases h
    | none =>
      rw [herror] at h
      have htail : (batches.map (Except.ok (ε := String))).tail = batches.tail.map .ok := List.map_tail.symm
      rw [htail] at h ⊢
      have hrest := ingestEach_noneForced flush processes batches.tail _ _ h
      rw [← hrest, hhead, List.length_append, countedBy_cons]
      change _ + _ + ((process.sorter.forcedBy _).length + _) = 0 ↔ _
      rw [← List.length_eq_zero_iff]
      dsimp only
      omega

end

namespace CpuCollector

section
variable {δ ω : Type} {args : CgroupArgs} {comm : CommReader ω} {self : CpuCollector δ}

def counted (self : CpuCollector δ) : ℕ :=
  Table.sumOver (fun _ process => process.sorter.forcedFlushes) self.processes + countedBy self.retired

structure Sorted (collector : CpuCollector δ) : Prop where
  active : ∀ pid process, collector.processes.lookup pid = some process → process.sorter.Sorted
  retired : ∀ process ∈ collector.retired, process.sorter.Sorted

theorem sumOver_insert_add (table : Table Int32 (CpuProcessCollector δ)) {pid : Int32} {before : CpuProcessCollector δ}
    (h : table.lookup pid = some before) (after : CpuProcessCollector δ) :
    Table.sumOver (fun _ process => process.sorter.forcedFlushes) (table.insert pid after) +
        before.sorter.forcedFlushes =
      Table.sumOver (fun _ process => process.sorter.forcedFlushes) table + after.sorter.forcedFlushes := by
  rw [Table.sumOver_erase _ h]
  have hinsert : Table.sumOver (fun _ process => process.sorter.forcedFlushes) (table.insert pid after) =
      after.sorter.forcedFlushes +
        Table.sumOver (fun _ process => process.sorter.forcedFlushes) (table.erase pid) := rfl
  omega

/-- Replacing the processes listed replaces what they count. -/
theorem sumOver_foldl_insert : ∀ (entries : List (Σ _ : Int32, CpuProcessCollector δ))
    (ingested : List (CpuProcessCollector δ)) (table : Table Int32 (CpuProcessCollector δ)),
    ingested.length = entries.length → (entries.map (·.1)).Nodup →
    (∀ entry ∈ entries, table.lookup entry.1 = some entry.2) →
      Table.sumOver (fun _ process => process.sorter.forcedFlushes)
          (((entries.map (·.1)).zip ingested).foldl (fun table entry => table.insert entry.1 entry.2) table) +
          countedBy (entries.map (·.2)) =
        Table.sumOver (fun _ process => process.sorter.forcedFlushes) table + countedBy ingested
  | [], [], _, _, _, _ => rfl
  | entry :: entries, process :: ingested, table, hlength, hnodup, hl => by
    obtain ⟨hfirst, hrest⟩ := List.forall_mem_cons.mp hl
    obtain ⟨hnew, hnodup⟩ := List.nodup_cons.mp hnodup
    have hinsert := sumOver_insert_add table hfirst process
    have hkept : ∀ other ∈ entries, (table.insert entry.1 process).lookup other.1 = some other.2 := by
      intro other hmem
      have hne : other.1 ≠ entry.1 := fun heq =>
        hnew (List.mem_map.mpr ⟨other, hmem, heq⟩)
      rw [AList.lookup_insert_ne hne]
      exact hrest other hmem
    have ih := sumOver_foldl_insert entries ingested (table.insert entry.1 process) (Nat.succ.inj hlength) hnodup hkept
    rw [List.map_cons, List.map_cons, List.zip_cons_cons, List.foldl_cons, countedBy_cons, countedBy_cons]
    dsimp only
    omega

theorem Sorted.ingestActive (h : self.Sorted) (flush : Bool) (drained : List (Except String PerfBatch))
    (iter : IterOrder) (window : CpuWindow) (world : ω) :
    (self.ingestActive args comm flush drained iter window world).2.1.Sorted ∧
      Adds (Table.sumOver (fun _ process => process.sorter.forcedFlushes) self.processes)
        (forcedEach args comm flush ((iter.order self.processes.entries).map (·.2)) drained window world).length
        (Table.sumOver (fun _ process => process.sorter.forcedFlushes)
          (self.ingestActive args comm flush drained iter window world).2.1.processes) := by
  have hperm := iter.perm self.processes.entries
  have hlookup : ∀ entry ∈ iter.order self.processes.entries, self.processes.lookup entry.1 = some entry.2 :=
    fun entry hmem => Table.mem_entries.mp (hperm.mem_iff.mp hmem)
  have hnodup : ((iter.order self.processes.entries).map (·.1)).Nodup :=
    (hperm.map _).nodup_iff.mpr self.processes.keys_nodup
  obtain ⟨hsorted, hlength, hadds⟩ := @ingestEach_adds δ ω args comm flush
    ((iter.order self.processes.entries).map (·.2)) drained window world
    (List.forall_mem_map.mpr fun entry hmem => h.active entry.1 entry.2 (hlookup entry hmem))
  -- The collectors go back under their own keys, so the sum changes by what each of them counted.
  have hsum := sumOver_foldl_insert (iter.order self.processes.entries) _ self.processes
    (hlength.trans (List.length_map _)) hnodup hlookup
  have hbefore : countedBy ((iter.order self.processes.entries).map (·.2)) =
      Table.sumOver (fun _ process => process.sorter.forcedFlushes) self.processes := by
    unfold countedBy Table.sumOver
    rw [List.map_map]
    exact (hperm.map _).sum_eq
  obtain ⟨-, hactive⟩ := @foldl_insert_spec δ (fun process => process.sorter.Sorted)
    (((iter.order self.processes.entries).map (·.1)).zip
      (ingestEach args comm flush ((iter.order self.processes.entries).map (·.2)) drained window world).2.1)
    self.processes
    (fun entry hmem => by
      obtain ⟨hkey, hprocess⟩ := List.of_mem_zip hmem
      obtain ⟨e, he, hpid⟩ := List.mem_map.mp hkey
      exact ⟨hpid ▸ Table.mem_of_lookup (hlookup e he), hsorted _ hprocess⟩)
    h.active
  refine ⟨⟨hactive, h.retired⟩, ?_⟩
  rw [hbefore] at hadds hsum
  have hafter : Table.sumOver (fun _ process => process.sorter.forcedFlushes)
      (self.ingestActive args comm flush drained iter window world).2.1.processes =
      countedBy (ingestEach args comm flush ((iter.order self.processes.entries).map (·.2))
        drained window world).2.1 := by
    refine Nat.add_right_cancel (hsum.trans (Nat.add_comm _ _))
  rw [hafter]
  exact hadds

theorem counted_forget (self : CpuCollector δ) : ({ self with retired := [] } : CpuCollector δ).counted =
    Table.sumOver (fun _ process => process.sorter.forcedFlushes) self.processes := Nat.add_zero _

/-- `after` counts what `before` counted and the `n` samples forced since, just if `kept`; in no case does it count
more. -/
structure Counts (before : CpuCollector δ) (n : ℕ) (kept : Prop) (after : CpuCollector δ) : Prop where
  sorted : after.Sorted
  le : after.counted ≤ before.counted + n
  eq_iff : before.counted + n ≤ u64Max → (after.counted = before.counted + n ↔ kept)

theorem Counts.of_eq {before after : CpuCollector δ} (hsorted : after.Sorted) (h : after.counted = before.counted)
    {kept : Prop} (hkept : kept) : Counts before 0 kept after :=
  ⟨hsorted, h.le, fun _ => ⟨fun _ => hkept, fun _ => h⟩⟩

theorem Sorted.ingest (h : self.Sorted) (flush : Bool) (active : List (Except String PerfBatch))
    (retired : List PerfBatch) (iter : IterOrder) (window : CpuWindow) (world : ω) :
    Counts self (self.forcedIngest args comm flush active retired iter window world).length
      ((self.ingest args comm flush active retired iter window world).1 = none → NoneForced self.retired retired)
      (self.ingest args comm flush active retired iter window world).2.1 := by
  obtain ⟨hsorted, hactive⟩ := @Sorted.ingestActive δ ω args comm self h flush active iter window world
  have hretired : (self.ingestActive args comm flush active iter window world).2.1.retired = self.retired := rfl
  unfold CpuCollector.ingest forcedIngest
  dsimp only
  cases herror : (self.ingestActive args comm flush active iter window world).1 with
  | some message =>
    simp only [Option.isSome_some, ite_true, List.append_nil]
    obtain ⟨hle, heq⟩ := hactive.add (adds_zero (countedBy self.retired))
    -- An active ring failed to drain: the retired ones are not touched in this call.
    refine ⟨hsorted, ?_, fun htop => ⟨fun _ hnone => by simp at hnone, fun _ => ?_⟩⟩
    · unfold counted
      rw [hretired]
      omega
    · unfold counted at htop ⊢
      rw [hretired]
      have := heq (by omega)
      omega
  | none =>
    simp only [Option.isSome_none, Bool.false_eq_true, ite_false, List.length_append]
    obtain ⟨hflushed, -, hcounted⟩ := @ingestEach_adds δ ω args comm true self.retired (retired.map .ok)
      (self.ingestActive args comm flush active iter window world).2.2.1
      (self.ingestActive args comm flush active iter window world).2.2.2 h.retired
    have hnone := @ingestEach_noneForced δ ω args comm true self.retired retired
      (self.ingestActive args comm flush active iter window world).2.2.1
      (self.ingestActive args comm flush active iter window world).2.2.2
    unfold ingestRetired
    dsimp only
    rw [hretired]
    cases hlast : (ingestEach args comm true self.retired (retired.map .ok)
      (self.ingestActive args comm flush active iter window world).2.2.1
      (self.ingestActive args comm flush active iter window world).2.2.2).1 with
    | some message =>
      simp only [Option.isSome_some, ite_true]
      obtain ⟨hle, heq⟩ := hactive.add hcounted
      refine ⟨⟨hsorted.active, hflushed⟩, ?_, fun htop => ⟨fun _ hdone => by simp at hdone, fun _ => ?_⟩⟩
      · exact hle
      · exact heq htop
    | none =>
      simp only [Option.isSome_none, Bool.false_eq_true, ite_false, forall_true_left]
      obtain ⟨hle, heq⟩ := hactive
      have hforgotten := counted_forget (self.ingestActive args comm flush active iter window world).2.1
      refine ⟨⟨hsorted.active, fun _ hmem => absurd hmem List.not_mem_nil⟩, ?_, fun htop => ?_⟩
      · rw [hforgotten, counted]
        omega
      · rw [hforgotten, ← hnone hlast]
        rw [counted] at htop ⊢
        omega

/-! ## Reconciling -/

theorem retire_counted (h : self.Sorted) (pid : Int32) :
    (self.retire pid).Sorted ∧ (self.retire pid).counted = self.counted := by
  unfold retire
  split
  · rename_i process hl
    refine ⟨⟨fun pid' other hother => ?_, fun other hmem => ?_⟩, ?_⟩
    · exact h.active pid' other (Table.lookup_erase_eq_some.mp hother).2
    · rcases List.mem_append.mp hmem with hmem | hmem
      · exact h.retired other hmem
      · rw [List.mem_singleton.mp hmem]
        exact h.active pid process hl
    · unfold counted countedBy
      rw [Table.sumOver_erase _ hl, List.map_append, List.sum_append, List.map_singleton, List.sum_singleton]
      dsimp only
      omega
  · exact ⟨h, rfl⟩

theorem foldl_retire_counted : ∀ (exited : List Int32) {self : CpuCollector δ}, self.Sorted →
    (exited.foldl retire self).Sorted ∧ (exited.foldl retire self).counted = self.counted
  | [], _, h => ⟨h, rfl⟩
  | pid :: exited, self, h => by
    obtain ⟨hsorted, hcounted⟩ := retire_counted h pid
    obtain ⟨hrest, hsame⟩ := foldl_retire_counted exited hsorted
    exact ⟨hrest, hsame.trans hcounted⟩

def TableCounts (table : Table Int32 (CpuProcessCollector δ)) (n : ℕ) : Prop :=
  (∀ pid process, table.lookup pid = some process → process.sorter.Sorted) ∧
    Table.sumOver (fun _ process => process.sorter.forcedFlushes) table = n

theorem TableCounts.insert {table : Table Int32 (CpuProcessCollector δ)} {n : ℕ} (h : TableCounts table n) (pid : Int32)
    {process : CpuProcessCollector δ} (hsorted : process.sorter.Sorted)
    (hcount : process.sorter.forcedFlushes =
      ((table.lookup pid).map fun before => before.sorter.forcedFlushes).getD 0) :
    TableCounts (table.insert pid process) n := by
  obtain ⟨hall, hsum⟩ := h
  refine ⟨fun pid' other hother => ?_, ?_⟩
  · rcases Table.lookup_insert_eq_some.mp hother with ⟨-, rfl⟩ | ⟨-, hother⟩
    · exact hsorted
    · exact hall pid' other hother
  · cases hl : table.lookup pid with
    | some before =>
      have hinsert := sumOver_insert_add table hl process
      rw [hl, Option.map_some, Option.getD_some] at hcount
      omega
    | none =>
      rw [hl, Option.map_none, Option.getD_none] at hcount
      have hinsert : Table.sumOver (fun _ process => process.sorter.forcedFlushes) (table.insert pid process) =
          process.sorter.forcedFlushes +
            Table.sumOver (fun _ process => process.sorter.forcedFlushes) (table.erase pid) := rfl
      rw [hinsert, Table.erase_of_notMem (Table.notMem_iff.mpr hl), hcount, Nat.zero_add, hsum]

theorem reconcileEach_counts (answers : ReconcileAnswers δ) : ∀ (pids : List Int32)
    {processes : Table Int32 (CpuProcessCollector δ)} {n : ℕ}, TableCounts processes n →
      TableCounts (reconcileEach args answers pids processes).2 n
  | [], _, _, h => h
  | pid :: pids, processes, n, h => by
    unfold reconcileEach
    dsimp only
    split
    · rename_i process hl
      have hinsert : TableCounts (processes.insert pid { process with unwind := (answers.reconciled pid).1 }) n :=
        h.insert pid (h.1 pid process hl) (by rw [hl]; rfl)
      split
      · exact hinsert
      · exact reconcileEach_counts answers pids hinsert
    · rename_i hl
      split
      · exact reconcileEach_counts answers pids (h.insert pid ⟨[], PerfEventSorter.holds_new _ _⟩ (by rw [hl]; rfl))
      · split
        · exact h
        · exact reconcileEach_counts answers pids h

theorem reconcileWithArgs_counted (h : self.Sorted) (snapshot : CgroupThreadSnapshot) (answers : ReconcileAnswers δ)
    (iter : IterOrder) : (self.reconcileWithArgs args snapshot answers iter).2.Sorted ∧
      (self.reconcileWithArgs args snapshot answers iter).2.counted = self.counted := by
  unfold reconcileWithArgs
  dsimp only
  split
  · exact ⟨h, rfl⟩
  · obtain ⟨hsorted, hcounted⟩ := foldl_retire_counted
      (iter.order (self.processes.keys.filter (· ∉ snapshot.threadsByPid))) h
    obtain ⟨hall, hsum⟩ := @reconcileEach_counts δ args answers (iter.order snapshot.threadsByPid.keys) _ _
      ⟨hsorted.active, rfl⟩
    refine ⟨⟨hall, hsorted.retired⟩, ?_⟩
    rw [← hcounted]
    exact congrArg (· + _) hsum

theorem refreshRoot_counted (h : self.Sorted) (pid : Int32) (unwind : ProcessUnwind δ) :
    (self.refreshRoot pid unwind).Sorted ∧ (self.refreshRoot pid unwind).counted = self.counted := by
  unfold refreshRoot
  split
  · rename_i process hl
    obtain ⟨hall, hsum⟩ := @TableCounts.insert δ self.processes _ ⟨h.active, rfl⟩ pid
      { process with unwind := unwind } (h.active pid process hl) (by rw [hl]; rfl)
    exact ⟨⟨hall, h.retired⟩, congrArg (· + _) hsum⟩
  · exact ⟨h, rfl⟩

/-! ## Statistics -/

theorem foldl_forcedFlushes : ∀ (sorters : List PerfEventSorter) (peak forced : ℕ), forced ≤ u64Max →
    (sorters.foldl (fun total sorter => (saturatingAddU64 total.1 sorter.peakPending,
      saturatingAddU64 total.2 sorter.forcedFlushes)) (peak, forced)).2 =
        min (forced + (sorters.map PerfEventSorter.forcedFlushes).sum) u64Max
  | [], _, forced, h => (min_eq_left h).symm
  | sorter :: sorters, peak, forced, _ => by
    have hrest := foldl_forcedFlushes sorters (saturatingAddU64 peak sorter.peakPending)
      (saturatingAddU64 forced sorter.forcedFlushes) (min_le_right _ _)
    rw [List.foldl_cons, hrest, List.map_cons, List.sum_cons]
    unfold saturatingAddU64 Sat.add
    omega

theorem takeSorterStats_forced (self : CpuCollector δ) : self.takeSorterStats.1.2 = min self.counted u64Max := by
  refine (foldl_forcedFlushes _ 0 0 (Nat.zero_le _)).trans ?_
  rw [Nat.zero_add, List.map_append, List.map_append, List.sum_append, List.map_map, List.map_map, List.map_map]
  rfl

theorem takeSorterStats_counted (h : self.Sorted) :
    self.takeSorterStats.2.Sorted ∧ self.takeSorterStats.2.counted = 0 := by
  have hzero : ∀ {sorter : PerfEventSorter}, sorter.Sorted → sorter.takeStats.2.Sorted := by
    intro sorter hsorted
    obtain ⟨held, hheld⟩ := hsorted
    exact ⟨held, hheld.keyed, hheld.items, hheld.length, Nat.zero_le _⟩
  refine ⟨⟨fun pid process hl => ?_, List.forall_mem_map.mpr fun process hmem => hzero (h.retired process hmem)⟩, ?_⟩
  · rw [show self.takeSorterStats.2.processes.lookup pid = _ from Table.lookup_mapValues _ _ _] at hl
    obtain ⟨before, hbefore, rfl⟩ := Option.map_eq_some_iff.mp hl
    exact hzero (h.active pid before hbefore)
  · unfold counted countedBy Table.sumOver takeSorterStats
    dsimp only [AList.mapValues]
    rw [List.map_map, List.map_map, Nat.add_eq_zero_iff, List.sum_eq_zero_iff, List.sum_eq_zero_iff]
    exact ⟨List.forall_mem_map.mpr fun _ _ => rfl, List.forall_mem_map.mpr fun _ _ => rfl⟩

/-! ## Any order of calls -/

theorem Sorted.call (h : self.Sorted) {c : CgroupCall δ ω} (hc : c ≠ .takeSorterStats) :
    Counts self (self.forced args comm c).length (self.KeepsForced args comm c) (self.call args comm c).2 := by
  cases c with
  | reconcile listed answers iter =>
    unfold CpuCollector.call
    dsimp only
    cases CgroupThreadSnapshot.read listed {} with
    | error message => exact Counts.of_eq h rfl fun _ => trivial
    | ok snapshot =>
      obtain ⟨hsorted, hcounted⟩ := @reconcileWithArgs_counted δ args self h snapshot answers iter
      exact Counts.of_eq hsorted hcounted fun _ => trivial
  | waitAndIngest waited active retired iter window world =>
    exact h.ingest false (waited :: active.map .ok) retired iter window world
  | drainAndIngest active retired iter window world =>
    exact h.ingest true (active.map .ok) retired iter window world
  | refreshRoot pid unwind =>
    obtain ⟨hsorted, hcounted⟩ := refreshRoot_counted h pid unwind
    exact Counts.of_eq hsorted hcounted fun _ => trivial
  | takeSorterStats => exact absurd rfl hc

theorem Sorted.calls : ∀ (l : List (CgroupCall δ ω)) {self : CpuCollector δ}, self.Sorted →
    (self.calls args comm l).Sorted
  | [], _, h => h
  | c :: l, self, h => by
    have hnext : (self.call args comm c).2.Sorted := by
      by_cases hc : c = .takeSorterStats
      · rw [hc]
        exact (takeSorterStats_counted h).1
      · exact (h.call hc).sorted
    exact hnext.calls l

/-- Along a window the counters keep up with `n` samples and those forced, just if they did before and no call forgets
any. -/
theorem counted_calls : ∀ (window : List (CgroupCall δ ω)) {self : CpuCollector δ} {n : ℕ} {kept : Prop}, self.Sorted →
    (∀ c ∈ window, c ≠ .takeSorterStats) → self.counted ≤ n → (n ≤ u64Max → (self.counted = n ↔ kept)) →
      (self.calls args comm window).counted ≤ n + (self.forcedIn args comm window).length ∧
        (n + (self.forcedIn args comm window).length ≤ u64Max →
          ((self.calls args comm window).counted = n + (self.forcedIn args comm window).length ↔
            kept ∧ self.KeepsAll args comm window))
  | [], self, n, kept, _, _, hle, hiff => by
    simp only [forcedIn, KeepsAll, List.length_nil, Nat.add_zero, and_true]
    exact ⟨hle, hiff⟩
  | c :: window, self, n, kept, h, hwindow, hle, hiff => by
    obtain ⟨hc, hrest⟩ := List.forall_mem_cons.mp hwindow
    obtain ⟨hsorted, hstep, heq⟩ := @Sorted.call δ ω args comm self h c hc
    have hnext : n + (self.forced args comm c).length ≤ u64Max →
        ((self.call args comm c).2.counted = n + (self.forced args comm c).length ↔
          kept ∧ self.KeepsForced args comm c) := by
      intro htop
      rw [← hiff (by omega), ← heq (by omega)]
      omega
    obtain ⟨hlater, hlateriff⟩ := counted_calls window hsorted hrest (hstep.trans (Nat.add_le_add_right hle _)) hnext
    simp only [forcedIn, KeepsAll, List.length_append]
    rw [← Nat.add_assoc, ← and_assoc]
    exact ⟨hlater, hlateriff⟩

/-- **Forced flushes are reported in their window** just if no retired process
is forgotten that has any. The window starts anew, or after statistics. -/
theorem forcedFlushes_reported_iff (args : CgroupArgs) (comm : CommReader ω) {before window : List (CgroupCall δ ω)}
    (hbefore : before = [] ∨ ∃ earlier, before = earlier ++ [.takeSorterStats])
    (hwindow : ∀ c ∈ window, c ≠ .takeSorterStats) :
    let start := ({} : CpuCollector δ).calls args comm before
    (start.calls args comm window).takeSorterStats.1.2 = (start.forcedIn args comm window).length ↔
      start.KeepsAll args comm window ∧ (start.forcedIn args comm window).length ≤ u64Max := by
  intro start
  have hempty : ({} : CpuCollector δ).Sorted :=
    ⟨fun _ _ hl => (by cases hl), fun _ hmem => absurd hmem List.not_mem_nil⟩
  have hsorted : start.Sorted := hempty.calls before
  have hzero : start.counted = 0 := by
    rcases hbefore with rfl | ⟨earlier, rfl⟩
    · rfl
    · change (({} : CpuCollector δ).calls args comm (earlier ++ [.takeSorterStats])).counted = 0
      rw [CpuCollector.calls, List.foldl_append]
      exact (takeSorterStats_counted (hempty.calls earlier)).2
  obtain ⟨hle, hiff⟩ := @counted_calls δ ω args comm window start 0 True hsorted hwindow hzero.le
    fun _ => iff_of_true hzero trivial
  rw [Nat.zero_add, true_and] at hiff
  rw [takeSorterStats_forced]
  constructor
  · intro hreported
    have htop : (start.forcedIn args comm window).length ≤ u64Max := hreported ▸ min_le_right _ _
    refine ⟨(hiff htop).mp ?_, htop⟩
    omega
  · rintro ⟨hkeeps, htop⟩
    rw [(hiff htop).mpr hkeeps, min_eq_left htop]

end

end CpuCollector

def secondLeft : CgroupCall Unit Unit :=
  .reconcile [(2, .threads {2})]
    { reconciled := fun _ => (⟨none, ExecutableRanges.fromMaps [], ()⟩, none)
      started := fun _ => .ok ⟨none, ExecutableRanges.fromMaps [], ()⟩
      alive := fun _ => true } .stored

def ingestInto (waited : PerfBatch) (active retired : List PerfBatch) : CgroupCall Unit Unit :=
  .waitAndIngest (.ok waited) active retired .stored (.new 1 8 8 false 0) ()

/-- Both processes have an event too many, and stay. -/
theorem forcedFlushes_reported_staying :
    let start := ({} : CpuCollector Unit).calls twoThreads noNames [.takeSorterStats]
    let window := [twoProcesses, ingestInto (samplesAt [100, 200]) [samplesAt [150, 250]] []]
    (start.calls twoThreads noNames window).takeSorterStats.1.2 =
        (start.forcedIn twoThreads noNames window).length ↔
      start.KeepsAll twoThreads noNames window ∧ (start.forcedIn twoThreads noNames window).length ≤ u64Max := by
  refine CpuCollector.forcedFlushes_reported_iff twoThreads noNames (Or.inr ⟨[], rfl⟩) ?_
  intro c hmem
  simp only [List.mem_cons, List.not_mem_nil, or_false] at hmem
  rcases hmem with rfl | rfl <;> simp [twoProcesses, ingestInto]

/-- A process whose cap popped an event exits before the statistics are taken. -/
theorem forced_flush_forgotten :
    let window := [twoProcesses, ingestInto (samplesAt [100, 200]) [samplesAt [150, 250]] [], secondLeft,
      ingestInto (samplesAt []) [] [samplesAt []]]
    (({} : CpuCollector Unit).calls twoThreads noNames window).takeSorterStats.1.2 = 1 ∧
      (({} : CpuCollector Unit).forcedIn twoThreads noNames window).length = 2 := by
  decide +kernel

end RustProfile
