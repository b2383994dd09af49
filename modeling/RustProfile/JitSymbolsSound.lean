import Mathlib.Data.List.Permutation
import RustProfile.JitSymbols

/-!
# Which code an address belongs to

Both tables are sorted permutations of what the files record. A lookup checks a
single predecessor, so it finds the owner of every covered address only if the
recorded ranges are well nested.
-/

namespace RustProfile

open UInt64Order

theorem start_le_addSaturating (start size : UInt64) : start ≤ addSaturating start size := by
  have hstart := toNat_le_u64Max start
  have hlt : min (start.toNat + size.toNat) u64Max < 2 ^ 64 := lt_of_le_of_lt (min_le_right _ _) (by decide)
  rw [UInt64.le_iff_toNat_le, addSaturating, UInt64.toNat_ofNat_of_lt' hlt]
  omega

/-! ## Sorting -/

/-- Any sorted permutation may be what the sort leaves. -/
theorem exists_unstableSort {table entries : List JitSymbol}
    (h : LastCover.SortedByStart JitSymbol.start table entries) : ∃ sort : UnstableSort, sort.sort entries = table := by
  refine ⟨⟨fun symbols => if symbols = entries then table else symbols.mergeSort fun a b => decide (a.start ≤ b.start),
    fun symbols => ?_⟩, if_pos rfl⟩
  by_cases heq : symbols = entries
  · rw [if_pos heq, heq]
    exact h
  · rw [if_neg heq]
    exact LastCover.sortedByStart_mergeSort symbols

/-- A table that is sorted in any way finds the owners exactly if the entries are well nested. -/
theorem findsOwners_iff {entries : List JitSymbol} (hle : ∀ symbol ∈ entries, symbol.start ≤ symbol.stop)
    {load : UnstableSort → List JitSymbol}
    (hload : ∀ sort, LastCover.SortedByStart JitSymbol.start (load sort) entries)
    (hall : ∀ table, LastCover.SortedByStart JitSymbol.start table entries → ∃ sort, load sort = table) :
    (∀ sort address, (∃ symbol ∈ load sort, symbol.Covers address) →
      findJitSymbol (load sort) address = ownerOf entries address) ↔ WellNested entries := by
  unfold WellNested
  rw [← LastCover.findsLast_iff hle]
  constructor
  · rintro h table htable address ⟨symbol, hsymbol, hcovers⟩
    obtain ⟨sort, rfl⟩ := hall table htable
    exact h sort address ⟨symbol, (hload sort).perm.mem_iff.mpr hsymbol, hcovers⟩
  · rintro h sort address ⟨symbol, hsymbol, hcovers⟩
    exact h (load sort) (hload sort) address ⟨symbol, (hload sort).perm.mem_iff.mp hsymbol, hcovers⟩

/-! ## Perf maps -/

theorem perfMapLine_le {line : List Char} {symbol : JitSymbol} (h : perfMapLine line = some symbol) :
    symbol.start ≤ symbol.stop := by
  unfold perfMapLine at h
  simp only [Option.bind_eq_bind, Option.bind_eq_some_iff] at h
  obtain ⟨_, -, _, -, start, -, size, -, hsymbol⟩ := h
  split at hsymbol
  · rw [← Option.some.inj hsymbol]
    exact start_le_addSaturating start size
  · cases hsymbol

theorem PerfMapFile.entries_le {file : PerfMapFile} : ∀ symbol ∈ file.entries, symbol.start ≤ symbol.stop := by
  intro symbol hsymbol
  unfold PerfMapFile.entries at hsymbol
  cases hcontents : file.contents with
  | none => rw [hcontents] at hsymbol; cases hsymbol
  | some contents =>
    rw [hcontents] at hsymbol
    dsimp only at hsymbol
    split at hsymbol
    · cases hsymbol
    · obtain ⟨line, -, hline⟩ := List.mem_filterMap.mp hsymbol
      exact perfMapLine_le hline

theorem PerfMapFile.findsOwners_iff (file : PerfMapFile) : file.FindsOwners ↔ WellNested file.entries :=
  RustProfile.findsOwners_iff file.entries_le (fun sort => sort.sorted file.entries) fun _ => exists_unstableSort

/-! ## Jitdumps -/

theorem kerase_eq_filter : ∀ {l : List (Σ _ : UInt64, JitSymbol)}, l.NodupKeys → ∀ k : UInt64,
    List.kerase k l = l.filter fun e => e.1 ≠ k
  | [], _, _ => rfl
  | e :: l, h, k => by
    obtain ⟨hnotin, hl⟩ := List.nodupKeys_cons.mp h
    by_cases hk : k = e.1
    · have hrest : ∀ e' ∈ l, decide (e'.1 ≠ k) = true := by
        intro e' he'
        rw [decide_eq_true_eq]
        rintro rfl
        exact hnotin (hk ▸ List.mem_keys_of_mem he')
      rw [List.kerase_cons_eq hk, List.filter_cons_of_neg (by simp [hk]), List.filter_eq_self.mpr hrest]
    · rw [List.kerase_cons_ne hk, List.filter_cons_of_pos (by simpa using Ne.symm hk), kerase_eq_filter hl]

def Mirrors (byIndex : Table UInt64 JitSymbol) (owners : Owners) : Prop :=
  (owners.map fun owner => (⟨owner.1, owner.2⟩ : Σ _ : UInt64, JitSymbol)).Perm byIndex.entries

section
variable {byIndex : Table UInt64 JitSymbol} {owners : Owners}

theorem Mirrors.length_eq (h : Mirrors byIndex owners) : owners.length = byIndex.size := by
  have hlength := List.Perm.length_eq h
  rw [List.length_map] at hlength
  exact hlength

theorem Mirrors.insert (h : Mirrors byIndex owners) (k : UInt64) (symbol : JitSymbol) :
    Mirrors (byIndex.insert k symbol) (owners.filter (fun owner => owner.1 ≠ k) ++ [(k, symbol)]) := by
  have hfilter := List.Perm.filter (fun e : Σ _ : UInt64, JitSymbol => decide (e.1 ≠ k)) h
  rw [List.filter_map] at hfilter
  have hentries : (byIndex.insert k symbol).entries = ⟨k, symbol⟩ :: List.kerase k byIndex.entries := rfl
  unfold Mirrors
  rw [hentries, kerase_eq_filter byIndex.nodupKeys, List.map_append, List.map_singleton]
  exact List.perm_append_comm.trans (hfilter.cons _)

theorem Mirrors.lookup (h : Mirrors byIndex owners) (k : UInt64) :
    byIndex.lookup k = (owners.find? fun owner => owner.1 = k).map (·.2) := by
  cases hfind : owners.find? fun owner => owner.1 = k with
  | some owner =>
    have hk : owner.1 = k := by simpa using List.find?_some hfind
    refine Table.mem_entries.mp ((List.Perm.mem_iff h).mp ?_)
    rw [← hk]
    exact List.mem_map_of_mem (List.mem_of_find?_eq_some hfind)
  | none =>
    cases hlookup : byIndex.lookup k with
    | none => rfl
    | some symbol =>
      obtain ⟨owner, howner, he⟩ := List.mem_map.mp ((List.Perm.mem_iff h).mpr (Table.mem_entries.mpr hlookup))
      have hk : owner.1 = k := congrArg Sigma.fst he
      have hnone := List.find?_eq_none.mp hfind owner howner
      exact absurd (decide_eq_true hk) hnone

theorem Mirrors.apply (h : Mirrors byIndex owners) (record : JitDumpRecord) :
    Mirrors (record.apply byIndex) (record.record owners) := by
  cases record with
  | codeLoad codeIndex codeAddr codeBytes name => exact h.insert _ _
  | codeMove codeIndex newCodeAddr codeSize =>
    have hlookup := h.lookup codeIndex
    unfold JitDumpRecord.apply JitDumpRecord.record
    cases hfind : owners.find? fun owner => owner.1 = codeIndex with
    | some owner =>
      rw [hfind] at hlookup
      simp only [hlookup, hfind, Option.map_some]
      exact h.insert _ _
    | none =>
      rw [hfind] at hlookup
      simp only [hlookup, hfind, Option.map_none]
      exact h
  | other => exact h

theorem Mirrors.records : ∀ {byIndex : Table UInt64 JitSymbol} {owners : Owners} (records : List JitDumpRecord),
    Mirrors byIndex owners → Mirrors (readJitdump records byIndex) (recordOwners records owners)
  | _, _, [], h => h
  | byIndex, owners, record :: records, h => by
    unfold readJitdump recordOwners
    rw [h.length_eq]
    split
    · exact Mirrors.records records (h.apply record)
    · exact h

theorem Mirrors.read (h : Mirrors byIndex owners) (file : JitDumpFile) :
    Mirrors (JitDumpFile.read byIndex file) (JitDumpFile.owners owners file) := by
  unfold JitDumpFile.read JitDumpFile.owners
  split
  · exact h
  · cases file.records with
    | none => exact h
    | some records => exact h.records records

theorem Mirrors.files : ∀ {byIndex : Table UInt64 JitSymbol} {owners : Owners} (files : List JitDumpFile),
    Mirrors byIndex owners → Mirrors (files.foldl JitDumpFile.read byIndex) (files.foldl JitDumpFile.owners owners)
  | _, _, [], h => h
  | _, _, file :: files, h => Mirrors.files files (h.read file)

end

theorem jitdumpEntries_perm (files : List JitDumpFile) :
    ((jitdumpTable files).entries.map fun entry => entry.2).Perm (jitdumpEntries files) := by
  have hmirrors : Mirrors (jitdumpTable files) (files.foldl JitDumpFile.owners []) :=
    Mirrors.files files (List.Perm.refl [])
  have hmap := List.Perm.map (fun entry : Σ _ : UInt64, JitSymbol => entry.2) hmirrors.symm
  rw [List.map_map] at hmap
  exact hmap

def Forward (owners : Owners) : Prop := ∀ owner ∈ owners, owner.2.start ≤ owner.2.stop

theorem Forward.append {owners : Owners} (h : Forward owners) {k : UInt64} {symbol : JitSymbol}
    (hs : symbol.start ≤ symbol.stop) : Forward (owners.filter (fun owner => owner.1 ≠ k) ++ [(k, symbol)]) := by
  intro owner howner
  rcases List.mem_append.mp howner with hkept | hnew
  · exact h owner (List.mem_filter.mp hkept).1
  · rw [List.mem_singleton.mp hnew]
    exact hs

theorem Forward.record {owners : Owners} (h : Forward owners) (record : JitDumpRecord) :
    Forward (record.record owners) := by
  cases record with
  | codeLoad codeIndex codeAddr codeBytes name => exact h.append (start_le_addSaturating _ _)
  | codeMove codeIndex newCodeAddr codeSize =>
    unfold JitDumpRecord.record
    dsimp only
    split
    · exact h.append (start_le_addSaturating _ _)
    · exact h
  | other => exact h

theorem Forward.records : ∀ {owners : Owners} (records : List JitDumpRecord), Forward owners →
    Forward (recordOwners records owners)
  | _, [], h => h
  | _, record :: records, h => by
    unfold recordOwners
    split
    · exact Forward.records records (h.record record)
    · exact h

theorem Forward.files : ∀ {owners : Owners} (files : List JitDumpFile), Forward owners →
    Forward (files.foldl JitDumpFile.owners owners)
  | _, [], h => h
  | owners, file :: files, h => by
    refine Forward.files files ?_
    unfold JitDumpFile.owners
    split
    · exact h
    · cases file.records with
      | none => exact h
      | some records => exact h.records records

theorem jitdumpEntries_le (files : List JitDumpFile) : ∀ symbol ∈ jitdumpEntries files, symbol.start ≤ symbol.stop := by
  intro symbol hsymbol
  obtain ⟨owner, howner, rfl⟩ := List.mem_map.mp hsymbol
  exact Forward.files files (fun _ h => by cases h) owner howner

theorem jitdumpFindsOwners_iff (files : List JitDumpFile) :
    JitdumpFindsOwners files ↔ WellNested (jitdumpEntries files) := by
  have hload : ∀ (iter : IterOrder) (sort : UnstableSort),
      LastCover.SortedByStart JitSymbol.start (loadJitdumpSymbols iter sort files) (jitdumpEntries files) := by
    intro iter sort
    obtain ⟨hperm, hsorted⟩ := sort.sorted (iter.order ((jitdumpTable files).entries.map fun entry => entry.2))
    exact ⟨hperm.trans ((iter.perm _).trans (jitdumpEntries_perm files)), hsorted⟩
  have hall : ∀ (iter : IterOrder) (table : List JitSymbol),
      LastCover.SortedByStart JitSymbol.start table (jitdumpEntries files) →
      ∃ sort, loadJitdumpSymbols iter sort files = table := by
    intro iter table htable
    exact exists_unstableSort ⟨htable.perm.trans ((iter.perm _).trans (jitdumpEntries_perm files)).symm, htable.sorted⟩
  have hiff := fun iter : IterOrder =>
    findsOwners_iff (jitdumpEntries_le files) (hload iter) (hall iter)
  exact ⟨fun h => (hiff IterOrder.stored).mp (h IterOrder.stored), fun h iter => (hiff iter).mpr h⟩

/-- **Lookups find the owner of every covered address exactly if the recorded ranges are well nested.** -/
theorem jit_lookup_finds_owner_iff (file : PerfMapFile) (files : List JitDumpFile) :
    (file.FindsOwners ↔ WellNested file.entries) ∧
      (JitdumpFindsOwners files ↔ WellNested (jitdumpEntries files)) :=
  ⟨file.findsOwners_iff, jitdumpFindsOwners_iff files⟩

/-! ## One range inside another -/

def nestedMap : PerfMapFile where
  modified := none
  contents := some "1000 1000 outer\n1400 100 inner\n".toList

theorem nestedMap_entries : nestedMap.entries = [⟨0x1000, 0x2000, "outer"⟩, ⟨0x1400, 0x1500, "inner"⟩] := by
  decide +kernel

/-- Behind the inner range the outer one is not found. -/
theorem outer_not_found_behind_inner (sort : UnstableSort) :
    (⟨0x1000, 0x2000, "outer"⟩ : JitSymbol) ∈ (loadPerfMap sort nestedMap).2 ∧
      (⟨0x1000, 0x2000, "outer"⟩ : JitSymbol).Covers 0x1800 ∧
      findJitSymbol (loadPerfMap sort nestedMap).2 0x1800 = none := by
  have hcovers : (⟨0x1000, 0x2000, "outer"⟩ : JitSymbol).Covers 0x1800 := ⟨by decide, by decide⟩
  obtain ⟨hperm, hsorted⟩ := sort.sorted nestedMap.entries
  unfold loadPerfMap
  rw [nestedMap_entries] at hperm hsorted ⊢
  rcases List.perm_pair.mp hperm with hsort | hsort
  · rw [hsort]
    exact ⟨List.mem_cons_self, hcovers, by decide +kernel⟩
  · rw [hsort, List.pairwise_pair] at hsorted
    exact absurd hsorted (by decide)

theorem nested_code_not_found : ¬ nestedMap.FindsOwners := by
  intro h
  obtain ⟨sort, -⟩ := exists_unstableSort ⟨List.Perm.refl [], List.Pairwise.nil⟩
  obtain ⟨hmem, hcovers, hnone⟩ := outer_not_found_behind_inner sort
  have howner := h sort 0x1800 ⟨_, hmem, hcovers⟩
  rw [hnone, nestedMap_entries] at howner
  revert howner
  decide +kernel

end RustProfile
