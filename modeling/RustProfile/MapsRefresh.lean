import RustProfile.Lib.Partition
import RustProfile.Lib.Run
import RustProfile.Symbol
import RustProfile.Unwind

/-!
# Refreshing the maps

The recorder reads the target's mappings again and again. Only when the
file-backed executable ones have changed does it give the new list to the
collectors, which build their executable ranges from all executable mappings.
-/

namespace RustProfile

structure MapLine extends MapEntry where
  offset : UInt64
  device : String
  inode : UInt64
  path : Option PathBuf
  deriving DecidableEq, Repr

/-- `ExecutableRanges::from_maps` of whole lines. -/
def rangesOf (maps : List MapLine) : ExecutableRanges := ExecutableRanges.fromMaps (maps.map MapLine.toMapEntry)

def MapLine.isRelevant (mapping : MapLine) : Bool := mapping.inode ≠ 0 && mapping.isExecutable

/-- What `MapEntry::eq` looks at. -/
def MapLine.compared (mapping : MapLine) : MapEntry × UInt64 × String × UInt64 × Option PathComponents :=
  (mapping.toMapEntry, mapping.offset, mapping.device, mapping.inode, mapping.path.map PathBuf.components)

/-- `==` of two lists of mappings. -/
def sameMaps (previous current : List MapLine) : Bool :=
  previous.map MapLine.compared = current.map MapLine.compared

def unwindMapsChanged (previous current : List MapLine) : Bool :=
  (previous.filter MapLine.isRelevant).map MapLine.compared ≠ (current.filter MapLine.isRelevant).map MapLine.compared

/-! ## The recorder -/

/-- The mappings that `record` has read last, and the ranges that the collectors hold. -/
structure MapTracking where
  maps : List MapLine
  cpuRanges : ExecutableRanges
  heapRanges : ExecutableRanges

/-- The collectors read mappings of their own when they start. After a change of the unwinding mode `record` keeps its
list. -/
inductive MapStep where
  | startCollectors (cpu heap maps : List MapLine)
  | changeMode (cpu heap : List MapLine)
  | refreshMaps (refreshed : List MapLine)

namespace MapTracking

def start (cpu heap maps : List MapLine) : MapTracking where
  maps := maps
  cpuRanges := rangesOf cpu
  heapRanges := rangesOf heap

variable (self : MapTracking)

def refreshMaps (refreshed : List MapLine) : MapTracking :=
  if !sameMaps refreshed self.maps then
    if unwindMapsChanged self.maps refreshed then
      { maps := refreshed, cpuRanges := rangesOf refreshed, heapRanges := rangesOf refreshed }
    else { self with maps := refreshed }
  else self

def step : MapStep → Option MapTracking
  | .startCollectors cpu heap maps => some (start cpu heap maps)
  | .changeMode cpu heap => some { self with cpuRanges := rangesOf cpu, heapRanges := rangesOf heap }
  | .refreshMaps refreshed => some (self.refreshMaps refreshed)

end MapTracking

/-! ## Which addresses the ranges contain -/

def MapLine.Covers (mapping : MapLine) (address : UInt64) : Prop := mapping.start ≤ address ∧ address < mapping.stop

def Executable (maps : List MapLine) (address : UInt64) : Prop :=
  ∃ mapping ∈ maps, mapping.isExecutable = true ∧ mapping.Covers address

/-- The address lies in an executable mapping of a file. -/
def FileBacked (maps : List MapLine) (address : UInt64) : Prop :=
  ∃ mapping ∈ maps, mapping.isRelevant = true ∧ mapping.Covers address

/-- The address lies in an executable mapping of no file. -/
def Anonymous (maps : List MapLine) (address : UInt64) : Prop :=
  ∃ mapping ∈ maps, (mapping.isExecutable = true ∧ mapping.inode = 0) ∧ mapping.Covers address

theorem executable_iff (maps : List MapLine) (address : UInt64) :
    Executable maps address ↔ FileBacked maps address ∨ Anonymous maps address := by
  unfold Executable FileBacked Anonymous MapLine.isRelevant
  rw [← exists_or]
  refine exists_congr fun mapping => ?_
  by_cases hinode : mapping.inode = 0
  · simp [hinode]
  · simp [hinode]

theorem AddressRange.mem_iff (range : AddressRange) (address : UInt64) :
    range.Mem address ↔ range.start.toNat ≤ address.toNat ∧ address.toNat < range.stop.toNat := Iff.rfl

theorem toNat_max (a b : UInt64) : (max a b).toNat = max a.toNat b.toNat := by
  show (if a ≤ b then b else a).toNat = _
  by_cases h : a ≤ b
  · rw [if_pos h, max_eq_right (UInt64.le_iff_toNat_le.mp h)]
  · rw [if_neg h, max_eq_left (not_le.mp (mt UInt64.le_iff_toNat_le.mpr h)).le]

theorem mem_mergeRanges {address : UInt64} : ∀ (rest : List AddressRange) (previous : AddressRange),
    (previous :: rest).Pairwise (fun a b => a.start ≤ b.start) →
      ((∃ range ∈ mergeRanges previous rest, range.Mem address) ↔ ∃ range ∈ previous :: rest, range.Mem address)
  | [], previous, _ => Iff.rfl
  | range :: rest, previous, h => by
    obtain ⟨hp, hrest⟩ := List.pairwise_cons.mp h
    have hle := UInt64.le_iff_toNat_le.mp (hp range List.mem_cons_self)
    rw [mergeRanges]
    by_cases htouch : range.start ≤ previous.stop
    · have hsorted : (({ previous with stop := max previous.stop range.stop } : AddressRange) :: rest).Pairwise
          fun a b => a.start ≤ b.start :=
        List.pairwise_cons.mpr ⟨fun r hr => hp r (List.mem_cons_of_mem _ hr), (List.pairwise_cons.mp hrest).2⟩
      have htouch' := UInt64.le_iff_toNat_le.mp htouch
      have hmerged : ({ previous with stop := max previous.stop range.stop } : AddressRange).Mem address ↔
          previous.Mem address ∨ range.Mem address := by
        simp only [AddressRange.mem_iff, toNat_max]
        omega
      rw [if_pos htouch, mem_mergeRanges rest _ hsorted]
      simp only [List.mem_cons, exists_eq_or_imp, hmerged, or_assoc]
    · rw [if_neg htouch]
      have ih := @mem_mergeRanges address rest range hrest
      simp only [List.mem_cons, exists_eq_or_imp] at ih ⊢
      rw [ih]

theorem mergeRanges_apart : ∀ (rest : List AddressRange) (previous : AddressRange),
    (previous :: rest).Pairwise (fun a b => a.start ≤ b.start) →
      (mergeRanges previous rest).Pairwise fun a b => a.stop < b.start
  | [], _, _ => List.pairwise_singleton _ _
  | range :: rest, previous, h => by
    obtain ⟨hp, hrest⟩ := List.pairwise_cons.mp h
    rw [mergeRanges]
    split
    · refine mergeRanges_apart rest _ (List.pairwise_cons.mpr ⟨fun r hr => ?_, (List.pairwise_cons.mp hrest).2⟩)
      exact hp r (List.mem_cons_of_mem _ hr)
    · rename_i htouch
      refine List.pairwise_cons.mpr ⟨fun r hr => ?_, mergeRanges_apart rest range hrest⟩
      have hstart : range.start.toNat ≤ r.start.toNat := by
        rcases start_of_mem_mergeRanges rest range hr with e | ⟨s, hs, e⟩
        · rw [e]
        · rw [e]
          exact (List.pairwise_cons.mp hrest).1 s hs
      rw [UInt64.le_iff_toNat_le] at htouch
      rw [UInt64.lt_iff_toNat_lt]
      omega

namespace ExecutableRanges

theorem contains_iff_mem (self : ExecutableRanges) (hapart : self.ranges.Pairwise fun a b => a.stop < b.start)
    (address : UInt64) : self.contains address = true ↔ ∃ range ∈ self.ranges, range.Mem address := by
  have hpart : Partition.Partitioned (fun range : AddressRange => decide (range.start ≤ address)) self.ranges :=
    @Partition.partitioned_of_sorted _ _ _ (fun range => range.start.toNat) _ self.sorted _ address.toNat
      fun range => decide_eq_true_iff
  unfold contains
  cases hlast : Partition.last (fun range : AddressRange => decide (range.start ≤ address)) self.ranges with
  | none =>
    have hnone := (Partition.last_eq_none_iff hpart).mp hlast
    unfold Partition.last at hlast
    rw [hlast]
    refine ⟨fun h => absurd h Bool.false_ne_true, ?_⟩
    rintro ⟨range, hrange, hstart, -⟩
    exact absurd hstart (of_decide_eq_false (hnone range hrange))
  | some range =>
    obtain ⟨before, after, hsplit, hstart, hafter⟩ := (Partition.last_eq_some_iff hpart).mp hlast
    unfold Partition.last at hlast
    rw [hlast]
    dsimp only
    rw [decide_eq_true_eq]
    constructor
    · intro hstop
      exact ⟨range, by rw [hsplit]; simp, of_decide_eq_true hstart, hstop⟩
    · rintro ⟨other, hother, hin⟩
      rw [hsplit] at hother hapart
      rcases List.mem_append.mp hother with hbefore | htail
      · -- what lies before ends before the range starts
        have hlt := (List.pairwise_append.mp hapart).2.2 other hbefore range List.mem_cons_self
        have hle := of_decide_eq_true hstart
        rw [AddressRange.mem_iff] at hin
        rw [UInt64.lt_iff_toNat_lt] at hlt
        rw [UInt64.le_iff_toNat_le] at hle
        omega
      · rcases List.mem_cons.mp htail with rfl | hmem
        · exact hin.2
        · exact absurd hin.1 (of_decide_eq_false (hafter other hmem))

theorem fromMaps_contains_iff (maps : List MapEntry) (address : UInt64) : (fromMaps maps).contains address = true ↔
    ∃ mapping ∈ maps, mapping.isExecutable = true ∧ mapping.start ≤ address ∧ address < mapping.stop := by
  have hsorted : (executableMappings maps).Pairwise fun a b => a.start ≤ b.start :=
    List.pairwise_insertionSort AddressRange.Le _
  have hmem : ∀ range : AddressRange, range ∈ executableMappings maps ↔
      ∃ mapping ∈ maps, mapping.isExecutable = true ∧ AddressRange.mk mapping.start mapping.stop = range := by
    intro range
    unfold executableMappings
    rw [List.mem_insertionSort]
    simp [and_assoc]
  have hcover : (∃ range ∈ executableMappings maps, range.Mem address) ↔
      ∃ mapping ∈ maps, mapping.isExecutable = true ∧ mapping.start ≤ address ∧ address < mapping.stop := by
    simp only [hmem]
    constructor
    · rintro ⟨_, ⟨mapping, hmapping, hx, rfl⟩, hin⟩
      exact ⟨mapping, hmapping, hx, hin⟩
    · rintro ⟨mapping, hmapping, hx, hin⟩
      exact ⟨_, ⟨mapping, hmapping, hx, rfl⟩, hin⟩
  rw [← hcover]
  -- Merging keeps what is covered and leaves ranges that do not touch, so the search finds the only one.
  cases hmappings : executableMappings maps with
  | nil =>
    have hranges : (fromMaps maps).ranges = [] := congrArg mergedRanges hmappings
    rw [contains_iff_mem _ (by rw [hranges]; exact List.Pairwise.nil), hranges]
  | cons first rest =>
    rw [hmappings] at hsorted
    have hranges : (fromMaps maps).ranges = mergeRanges first rest := congrArg mergedRanges hmappings
    rw [contains_iff_mem _ (by rw [hranges]; exact mergeRanges_apart rest first hsorted), hranges,
      mem_mergeRanges rest first hsorted]

end ExecutableRanges

theorem rangesOf_contains_iff (maps : List MapLine) (address : UInt64) :
    (rangesOf maps).contains address = true ↔ Executable maps address := by
  unfold rangesOf Executable
  rw [ExecutableRanges.fromMaps_contains_iff]
  constructor
  · rintro ⟨_, hmem, hx, hin⟩
    obtain ⟨mapping, hmapping, rfl⟩ := List.mem_map.mp hmem
    exact ⟨mapping, hmapping, hx, hin⟩
  · rintro ⟨mapping, hmapping, hx, hin⟩
    exact ⟨_, List.mem_map_of_mem hmapping, hx, hin⟩

/-! ## Refreshes that are left out -/

def NeverSkips (previous current : List MapLine) : Prop :=
  unwindMapsChanged previous current = false →
    ∀ address, (rangesOf previous).contains address = (rangesOf current).contains address

/-- Outside the mappings of files the same addresses are executable. -/
def SameAnonymous (previous current : List MapLine) : Prop :=
  ∀ address, ¬ FileBacked current address → (Anonymous previous address ↔ Anonymous current address)

theorem fileBacked_of_unchanged {previous current : List MapLine} (h : unwindMapsChanged previous current = false)
    (address : UInt64) : FileBacked previous address ↔ FileBacked current address := by
  have heq : (previous.filter MapLine.isRelevant).map MapLine.compared =
      (current.filter MapLine.isRelevant).map MapLine.compared := by
    simpa [unwindMapsChanged] using h
  have hmapped : ∀ maps : List MapLine, FileBacked maps address ↔
      ∃ compared ∈ (maps.filter MapLine.isRelevant).map MapLine.compared,
        compared.1.start ≤ address ∧ address < compared.1.stop := by
    intro maps
    constructor
    · rintro ⟨mapping, hmem, hrelevant, hcovers⟩
      exact ⟨_, List.mem_map_of_mem (List.mem_filter.mpr ⟨hmem, hrelevant⟩), hcovers⟩
    · rintro ⟨compared, hmem, hcovers⟩
      obtain ⟨mapping, hmapping, rfl⟩ := List.mem_map.mp hmem
      exact ⟨mapping, (List.mem_filter.mp hmapping).1, (List.mem_filter.mp hmapping).2, hcovers⟩
  rw [hmapped, hmapped, heq]

theorem neverSkips_iff (previous current : List MapLine) :
    NeverSkips previous current ↔ unwindMapsChanged previous current = true ∨ SameAnonymous previous current := by
  unfold NeverSkips
  cases hchanged : unwindMapsChanged previous current with
  | true => simp
  | false =>
    have hfile := fileBacked_of_unchanged hchanged
    simp only [Bool.false_eq_true, false_or, true_imp_iff]
    refine forall_congr' fun address => ?_
    rw [Bool.eq_iff_iff, rangesOf_contains_iff, rangesOf_contains_iff, executable_iff, executable_iff, hfile]
    by_cases h : FileBacked current address
    · simp [h]
    · simp [h]

/-! ## Runs of the recorder -/

namespace MapTracking

def Current (self : MapTracking) : Prop :=
  ∀ address, (self.cpuRanges.contains address = true ↔ Executable self.maps address) ∧
    (self.heapRanges.contains address = true ↔ Executable self.maps address)

/-- The collectors have read the same executable addresses as the recorder. -/
def ReadAlike (cpu heap maps : List MapLine) : Prop :=
  ∀ address, (Executable cpu address ↔ Executable maps address) ∧ (Executable heap address ↔ Executable maps address)

/-- Collectors start with what the recorder reads, and a refresh without a change of file mappings has none of
anonymous ones. -/
def StepMeets (self : MapTracking) : MapStep → Prop
  | .startCollectors cpu heap maps => ReadAlike cpu heap maps
  | .changeMode cpu heap => ReadAlike cpu heap self.maps
  | .refreshMaps refreshed => unwindMapsChanged self.maps refreshed = true ∨ SameAnonymous self.maps refreshed

theorem current_start {cpu heap maps : List MapLine} (h : ReadAlike cpu heap maps) : (start cpu heap maps).Current := by
  intro address
  unfold start
  rw [rangesOf_contains_iff, rangesOf_contains_iff]
  exact h address

theorem Current.refreshMaps {self : MapTracking} (h : self.Current) {refreshed : List MapLine}
    (hok : unwindMapsChanged self.maps refreshed = true ∨ SameAnonymous self.maps refreshed) :
    (self.refreshMaps refreshed).Current := by
  unfold MapTracking.refreshMaps
  split
  · split
    · intro address
      exact ⟨rangesOf_contains_iff refreshed address, rangesOf_contains_iff refreshed address⟩
    · rename_i hunchanged
      have hsame := (neverSkips_iff _ _).mpr hok ((Bool.not_eq_true _).mp hunchanged)
      intro address
      have heq : Executable self.maps address ↔ Executable refreshed address := by
        rw [← rangesOf_contains_iff, ← rangesOf_contains_iff, hsame address]
      obtain ⟨hcpu, hheap⟩ := h address
      exact ⟨hcpu.trans heq, hheap.trans heq⟩
  · exact h

theorem Current.step {self next : MapTracking} {action : MapStep} (h : self.Current) (hok : self.StepMeets action)
    (hstep : self.step action = some next) : next.Current := by
  cases action with
  | startCollectors cpu heap maps =>
    obtain rfl := Option.some.inj hstep
    exact current_start hok
  | changeMode cpu heap =>
    obtain rfl := Option.some.inj hstep
    intro address
    dsimp only
    rw [rangesOf_contains_iff, rangesOf_contains_iff]
    exact hok address
  | refreshMaps refreshed =>
    obtain rfl := Option.some.inj hstep
    exact h.refreshMaps hok

end MapTracking

/-- **A refresh is skipped wrongly exactly where anonymous mappings change alone; in runs without such a refresh the
ranges follow the latest mappings.** -/
theorem maps_refresh_never_skipped_iff (previous current : List MapLine) :
    (NeverSkips previous current ↔ unwindMapsChanged previous current = true ∨ SameAnonymous previous current) ∧
    ∀ (cpu heap maps : List MapLine) (steps : List MapStep) (reached : MapTracking),
      MapTracking.ReadAlike cpu heap maps →
      Run.Guarded MapTracking.step MapTracking.StepMeets (MapTracking.start cpu heap maps) steps →
      Run.run MapTracking.step (MapTracking.start cpu heap maps) steps = some reached → reached.Current := by
  refine ⟨neverSkips_iff previous current, ?_⟩
  intro cpu heap maps steps reached hread hguarded hrun
  refine Run.run_inv MapTracking.step ?_ (MapTracking.current_start hread) hguarded hrun
  intro self action next hself hok hstep
  exact hself.step hok hstep

def executableLine (start stop inode : UInt64) : MapLine where
  start := start
  stop := stop
  permissions := [114, if inode = 0 then 119 else 45, 120, 112]
  offset := 0
  device := "fd:00"
  inode := inode
  path := none

theorem maps_refresh_never_skipped_loaded : ((MapTracking.start [executableLine 0x1000 0x2000 7]
      [executableLine 0x1000 0x2000 7] [executableLine 0x1000 0x2000 7]).refreshMaps
    [executableLine 0x1000 0x2000 7, executableLine 0x5000 0x6000 8]).Current :=
  (maps_refresh_never_skipped_iff [] []).2 [executableLine 0x1000 0x2000 7] [executableLine 0x1000 0x2000 7]
    [executableLine 0x1000 0x2000 7] [.refreshMaps [executableLine 0x1000 0x2000 7, executableLine 0x5000 0x6000 8]] _
    (fun _ => ⟨Iff.rfl, Iff.rfl⟩) ⟨.inl (by decide), fun _ _ => trivial⟩ rfl

/-- A new anonymous region is no change, but its addresses are executable. -/
theorem anonymous_region_skipped : unwindMapsChanged [executableLine 0x1000 0x2000 7]
      [executableLine 0x1000 0x2000 7, executableLine 0x5000 0x6000 0] = false ∧
    (rangesOf [executableLine 0x1000 0x2000 7]).contains 0x5000 = false ∧
    (rangesOf [executableLine 0x1000 0x2000 7, executableLine 0x5000 0x6000 0]).contains 0x5000 = true ∧
    ¬ NeverSkips [executableLine 0x1000 0x2000 7]
      [executableLine 0x1000 0x2000 7, executableLine 0x5000 0x6000 0] := by
  have hcontains : (rangesOf [executableLine 0x1000 0x2000 7]).contains 0x5000 = false ∧
      (rangesOf [executableLine 0x1000 0x2000 7, executableLine 0x5000 0x6000 0]).contains 0x5000 = true := by
    decide +kernel
  refine ⟨by decide, hcontains.1, hcontains.2, fun h => ?_⟩
  have hsame := h (by decide) 0x5000
  rw [hcontains.1, hcontains.2] at hsame
  cases hsame

end RustProfile
