import RustProfile.Lib.Spans
import RustProfile.MapsRefresh

/-!
# The executable ranges are an index

Ranges that are not empty merge into ranges that are not empty and do not touch.
There is only one such list that covers the same addresses, so it does not
matter how the sort leaves mappings that start at the same address.
-/

namespace RustProfile

def executableRanges (maps : List MapEntry) : List AddressRange :=
  (maps.filter MapEntry.isExecutable).map fun mapping => ⟨mapping.start, mapping.stop⟩

theorem executableMappings_perm (maps : List MapEntry) : (executableMappings maps).Perm (executableRanges maps) :=
  List.perm_insertionSort AddressRange.Le _

theorem mem_executableRanges {maps : List MapEntry} {range : AddressRange} : range ∈ executableRanges maps ↔
    ∃ mapping ∈ maps, mapping.isExecutable = true ∧ AddressRange.mk mapping.start mapping.stop = range := by
  unfold executableRanges
  simp [and_assoc]

def addressSpans : Spans AddressRange ℕ where
  start range := range.start.toNat
  stop range := range.stop.toNat
  ext := by
    rintro ⟨start, stop⟩ ⟨start', stop'⟩ hstart hstop
    obtain rfl := UInt64.toNat_inj.mp hstart
    obtain rfl := UInt64.toNat_inj.mp hstop
    rfl

theorem mergeRanges_nonempty : ∀ (rest : List AddressRange) (previous : AddressRange),
    (∀ range ∈ previous :: rest, range.start < range.stop) →
      ∀ range ∈ mergeRanges previous rest, range.start < range.stop
  | [], _, h => h
  | range :: rest, previous, h => by
    obtain ⟨hprevious, hrest⟩ := List.forall_mem_cons.mp h
    rw [mergeRanges]
    by_cases htouch : range.start ≤ previous.stop
    · rw [if_pos htouch]
      refine mergeRanges_nonempty rest _ (List.forall_mem_cons.mpr ⟨?_, (List.forall_mem_cons.mp hrest).2⟩)
      show previous.start < max previous.stop range.stop
      rw [UInt64.lt_iff_toNat_lt] at hprevious ⊢
      rw [toNat_max]
      exact lt_of_lt_of_le hprevious (le_max_left _ _)
    · rw [if_neg htouch]
      exact List.forall_mem_cons.mpr ⟨hprevious, mergeRanges_nonempty rest range hrest⟩

theorem mergedRanges_separated {ranges : List AddressRange} (hsorted : ranges.Pairwise fun a b => a.start ≤ b.start)
    (hvalid : ∀ range ∈ ranges, range.start < range.stop) : addressSpans.Separated (mergedRanges ranges) := by
  cases ranges with
  | nil => exact ⟨fun _ h => absurd h List.not_mem_nil, List.Pairwise.nil⟩
  | cons first rest =>
    refine ⟨fun range hrange => ?_, (mergeRanges_apart rest first hsorted).imp fun h => UInt64.lt_iff_toNat_lt.mp h⟩
    exact UInt64.lt_iff_toNat_lt.mp (mergeRanges_nonempty rest first hvalid range hrange)

theorem covers_mergedRanges {ranges : List AddressRange} (hsorted : ranges.Pairwise fun a b => a.start ≤ b.start)
    (x : ℕ) : addressSpans.Covers (mergedRanges ranges) x ↔ addressSpans.Covers ranges x := by
  cases ranges with
  | nil => rfl
  | cons first rest =>
    by_cases hx : x < 2 ^ 64
    · have hword : (UInt64.ofNat x).toNat = x := UInt64.toNat_ofNat_of_lt' hx
      have h := @mem_mergeRanges (UInt64.ofNat x) rest first hsorted
      simp only [AddressRange.mem_iff, hword] at h
      exact h
    · -- no range reaches beyond the addresses
      have hout : ∀ ranges : List AddressRange, ¬ addressSpans.Covers ranges x := by
        rintro ranges ⟨range, -, -, hlt⟩
        exact hx (lt_trans hlt range.stop.toNat_lt)
      exact iff_of_false (hout _) (hout _)

theorem mergedRanges_eq_of_perm {ranges ranges' : List AddressRange} (hperm : ranges.Perm ranges')
    (hsorted : ranges.Pairwise fun a b => a.start ≤ b.start)
    (hsorted' : ranges'.Pairwise fun a b => a.start ≤ b.start)
    (hvalid : ∀ range ∈ ranges, range.start < range.stop) : mergedRanges ranges = mergedRanges ranges' := by
  have hvalid' : ∀ range ∈ ranges', range.start < range.stop := fun range h => hvalid range (hperm.mem_iff.mpr h)
  refine Spans.eq_of_covers (mergedRanges_separated hsorted hvalid) (mergedRanges_separated hsorted' hvalid') ?_
  intro x
  rw [covers_mergedRanges hsorted, covers_mergedRanges hsorted']
  unfold Spans.Covers
  simp only [hperm.mem_iff]

namespace ExecutableRanges

/-- Whatever order the sort leaves the mappings of one start in. -/
theorem fromMaps_faithful (maps : List MapEntry) (hvalid : ∀ mapping ∈ maps, mapping.start < mapping.stop) :
    (∀ address, (fromMaps maps).contains address = true ↔
      ∃ mapping ∈ maps, mapping.isExecutable = true ∧ mapping.start ≤ address ∧ address < mapping.stop) ∧
    (fromMaps maps).ranges.Pairwise (fun a b => a.start < b.start) ∧
    (fromMaps maps).ranges.Pairwise (fun a b => ∀ address, ¬ (a.Mem address ∧ b.Mem address)) ∧
    (fromMaps maps).ranges.Pairwise (fun a b => a.stop < b.start) ∧
    (∀ range ∈ (fromMaps maps).ranges, range.start < range.stop) ∧
    ∀ ordered : List AddressRange, ordered.Perm (executableRanges maps) →
      ordered.Pairwise (fun a b => a.start ≤ b.start) → mergedRanges ordered = (fromMaps maps).ranges := by
  have hsorted : (executableMappings maps).Pairwise fun a b => a.start ≤ b.start :=
    List.pairwise_insertionSort AddressRange.Le _
  have hranges : ∀ range ∈ executableRanges maps, range.start < range.stop := by
    intro range hrange
    obtain ⟨mapping, hmapping, -, rfl⟩ := mem_executableRanges.mp hrange
    exact hvalid mapping hmapping
  have hmappings : ∀ range ∈ executableMappings maps, range.start < range.stop := fun range h =>
    hranges range ((executableMappings_perm maps).mem_iff.mp h)
  obtain ⟨hnonempty, hapart⟩ := mergedRanges_separated hsorted hmappings
  have hstops : (fromMaps maps).ranges.Pairwise fun a b => a.stop < b.start :=
    hapart.imp fun h => UInt64.lt_iff_toNat_lt.mpr h
  have hwide : ∀ range ∈ (fromMaps maps).ranges, range.start < range.stop := fun range h =>
    UInt64.lt_iff_toNat_lt.mpr (hnonempty range h)
  refine ⟨fromMaps_contains_iff maps, ?_, hstops.imp ?_, hstops, hwide, ?_⟩
  · refine List.Pairwise.imp_of_mem ?_ hstops
    intro a b ha _ hlt
    exact UInt64.lt_trans (hwide a ha) hlt
  · rintro a b hlt address ⟨⟨-, hbelow⟩, habove, -⟩
    rw [UInt64.lt_iff_toNat_lt] at hlt hbelow
    rw [UInt64.le_iff_toNat_le] at habove
    omega
  · intro ordered hperm hordered
    have hall := hperm.trans (executableMappings_perm maps).symm
    exact mergedRanges_eq_of_perm hall hordered hsorted fun range h => hmappings range (hall.mem_iff.mp h)

def tangledMaps : List MapEntry :=
  let code := "r-xp".toList.map Char.toUInt8
  [⟨0x3000, 0x4000, code⟩, ⟨0x1000, 0x2800, code⟩, ⟨0x1000, 0x2000, code⟩, ⟨0x8000, 0x9000, code⟩,
    ⟨0x2000, 0x3000, code⟩, ⟨0x6000, 0x7000, "rw-p".toList.map Char.toUInt8⟩]

theorem fromMaps_faithful_tangled : (fromMaps tangledMaps).ranges = [⟨0x1000, 0x4000⟩, ⟨0x8000, 0x9000⟩] ∧
    (fromMaps tangledMaps).contains 0x3fff = true ∧ (fromMaps tangledMaps).contains 0x6000 = false ∧
    mergedRanges [⟨0x1000, 0x2000⟩, ⟨0x1000, 0x2800⟩, ⟨0x2000, 0x3000⟩, ⟨0x3000, 0x4000⟩, ⟨0x8000, 0x9000⟩] =
      (fromMaps tangledMaps).ranges := by
  obtain ⟨hcontains, -, -, -, -, hany⟩ := fromMaps_faithful tangledMaps (by decide)
  refine ⟨by decide, (hcontains 0x3fff).mpr (by decide), ?_, hany _ (by decide) (by decide)⟩
  exact Bool.eq_false_iff.mpr (mt (hcontains 0x6000).mp (by decide))

end ExecutableRanges

end RustProfile
