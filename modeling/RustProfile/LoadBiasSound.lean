import RustProfile.LoadBias

/-!
# What the load bias comes out as

The first executable mapping starts where its first segment starts, so it decides
the search. The segment that is found there may be another one, which starts in
the same page of the file but in another page of the memory.
-/

namespace RustProfile

/-! ## Pages -/

theorem page_page (a : UInt64) : page (page a) = page a := by
  unfold page
  rw [UInt64.and_assoc, UInt64.and_self]

theorem split_mask (a m : BitVec 64) : (a &&& ~~~m) + (a &&& m) = a := by
  have hdisjoint : (a &&& ~~~m) &&& (a &&& m) = 0#64 := by
    apply BitVec.eq_of_getLsbD_eq
    intro i hi
    simp only [BitVec.getLsbD_and, BitVec.getLsbD_not, BitVec.getLsbD_zero]
    cases a.getLsbD i <;> cases m.getLsbD i <;> simp
  rw [BitVec.add_eq_or_of_and_eq_zero _ _ hdisjoint]
  apply BitVec.eq_of_getLsbD_eq
  intro i hi
  simp only [BitVec.getLsbD_or, BitVec.getLsbD_and, BitVec.getLsbD_not, hi]
  cases a.getLsbD i <;> cases m.getLsbD i <;> simp

theorem page_add_low (a : UInt64) : page a + (a &&& 0xfff) = a :=
  UInt64.eq_of_toBitVec_eq (split_mask a.toBitVec 0xfff)

theorem toNat_low (a : UInt64) : (a &&& 0xfff).toNat = a.toNat % 4096 := by
  rw [UInt64.toNat_and]
  exact Nat.and_two_pow_sub_one_eq_mod a.toNat 12

theorem page_le (a : UInt64) : page a ≤ a := by
  rw [UInt64.le_iff_toNat_le, page, UInt64.toNat_and]
  exact Nat.and_le_left

theorem checkedSubU64_eq_some_iff {a b c : UInt64} : checkedSubU64 a b = some c ↔ b ≤ a ∧ a - b = c := by
  unfold checkedSubU64
  split <;> simp [*]

theorem checkedAddU64_eq_some_iff {a b c : UInt64} :
    checkedAddU64 a b = some c ↔ a.toNat + b.toNat ≤ u64Max ∧ a + b = c := by
  unfold checkedAddU64
  split <;> simp [*]

/-! ## Mappings -/

theorem mapSegments_subset {mapped : MappedSegment} : ∀ {segments : List Segment}, mapped ∈ mapSegments segments →
    mapped.segment ∈ segments
  | segment :: segments, h => by
    unfold mapSegments at h
    dsimp only at h
    split at h
    · rcases List.mem_cons.mp h with rfl | h
      · exact List.mem_cons_self
      · exact List.mem_cons_of_mem _ (mapSegments_subset h)
    · exact List.mem_cons_of_mem _ (mapSegments_subset h)

theorem Merged.head {mappings shown : List MapLine} (h : Merged mappings shown) :
    shown.head?.map (fun m => (m.start, m.offset)) = mappings.head?.map fun m => (m.start, m.offset) := by
  induction h with
  | nil => rfl
  | keep _ _ => rfl
  | join _ _ _ _ ih => exact ih

theorem Merged.eq_nil {shown : List MapLine} (h : Merged [] shown) : shown = [] := by
  cases h
  rfl

theorem Merged.cons {mapping : MapLine} {mappings shown : List MapLine} (h : Merged (mapping :: mappings) shown) :
    ∃ first rest, shown = first :: rest ∧ first.start = mapping.start ∧ first.offset = mapping.offset := by
  have hhead := h.head
  cases shown with
  | nil => cases hhead
  | cons first rest =>
    simp only [List.head?_cons, Option.map_some, Option.some.injEq, Prod.mk.injEq] at hhead
    exact ⟨first, rest, rfl, hhead⟩

theorem elfLoadBias_cons {segments : List Segment} {mapping : MapLine} {mappings : List MapLine} {segment : Segment}
    (h : segments.find? (fun segment => page segment.offset = page mapping.offset) = some segment) :
    elfLoadBias segments (mapping :: mappings) = checkedSubU64 mapping.start (page segment.address) := by
  unfold elfLoadBias
  simp only [h]

theorem elfBaseAvma_cons {image : ElfImage} {mapping : MapLine} {mappings : List MapLine} {segment : Segment}
    (h : image.segments.find? (fun segment => page segment.offset = page mapping.offset) = some segment) :
    elfBaseAvma image (mapping :: mappings) = (checkedSubU64 mapping.start (page segment.address)).bind fun loadBias =>
      checkedAddU64 loadBias image.relativeAddressBase := by
  unfold elfBaseAvma
  simp only [h]
  rfl

theorem checkedSubU64_bias {bias p q : UInt64} (h : bias.toNat + p.toNat < 2 ^ 64) :
    checkedSubU64 (bias + p) q = some bias ↔ q = p := by
  rw [checkedSubU64_eq_some_iff]
  constructor
  · rintro ⟨-, hsub⟩
    grind
  · rintro rfl
    refine ⟨?_, UInt64.add_sub_cancel _ _⟩
    rw [UInt64.le_iff_toNat_le, UInt64.toNat_add, Nat.mod_eq_of_lt h]
    omega

namespace LoadedImage

variable {self : LoadedImage}

theorem line_offset_page (mapped : MappedSegment) : page (self.line mapped).offset = page mapped.segment.offset :=
  page_page _

/-- Each byte of a segment is mapped from its place in the file. -/
theorem line_shows_segment {mapped : MappedSegment} (h : mapped.segment ∈ self.image.segments) :
    (self.line mapped).offset + (self.bias + mapped.segment.address - (self.line mapped).start) =
      mapped.segment.offset := by
  have hlow : mapped.segment.offset &&& 0xfff = mapped.segment.address &&& 0xfff := by
    apply UInt64.toNat_inj.mp
    rw [toNat_low, toNat_low]
    exact self.image.congruent _ h
  have hoffset := page_add_low mapped.segment.offset
  have haddress := page_add_low mapped.segment.address
  rw [hlow] at hoffset
  unfold line
  grind

theorem search_first (h : self.Loaded) {mapped : MappedSegment} (hfirst : self.mapped.head? = some mapped) :
    ∃ segment, self.image.segments.find? (fun segment => page segment.offset = page mapped.segment.offset) =
        some segment ∧
      elfLoadBias self.image.segments self.mappings =
        checkedSubU64 (self.bias + page mapped.segment.address) (page segment.address) ∧
      elfBaseAvma self.image self.mappings =
        (checkedSubU64 (self.bias + page mapped.segment.address) (page segment.address)).bind fun loadBias =>
          checkedAddU64 loadBias self.image.relativeAddressBase := by
  have hmem := List.mem_of_head? hfirst
  have hsegment := mapSegments_subset (List.mem_filter.mp hmem).1
  obtain ⟨rest, hrest⟩ : ∃ rest, self.mapped = mapped :: rest := List.head?_eq_some_iff.mp hfirst
  have hshown := h.shown
  rw [hrest, List.map_cons] at hshown
  obtain ⟨first, others, hmappings, hstart, hoffset⟩ := hshown.cons
  cases hfind : self.image.segments.find? fun segment => page segment.offset = page mapped.segment.offset with
  | none => exact absurd (decide_eq_true rfl) (List.find?_eq_none.mp hfind mapped.segment hsegment)
  | some segment =>
    have hsearch : self.image.segments.find? (fun segment => page segment.offset = page first.offset) =
        some segment := by
      rw [hoffset, line_offset_page]
      exact hfind
    refine ⟨segment, rfl, ?_, ?_⟩
    · rw [hmappings, elfLoadBias_cons hsearch, hstart]
      rfl
    · rw [hmappings, elfBaseAvma_cons hsearch, hstart]
      rfl

theorem mapped_head : self.mapped.head? =
    (mapSegments self.image.segments).find? fun mapped => mapped.segment.isExecutable := by
  unfold mapped
  rw [List.head?_filter]

theorem not_trueBias_of_unmapped (h : self.Loaded) (hfirst : self.mapped.head? = none) : ¬ self.TrueBias := by
  intro htrue
  have hshown := h.shown
  rw [List.head?_eq_none_iff.mp hfirst] at hshown
  have hbias := htrue.loadBias
  rw [hshown.eq_nil] at hbias
  cases hbias

theorem lookup_of_loadBias (hbias : elfLoadBias self.image.segments self.mappings = some self.bias)
    (demangler : Demangler) (module : ModuleSymbols) (address : UInt64) (ha : self.bias ≤ address)
    (hmodule : elfLoadBias self.image.segments self.mappings = some module.loadBias) :
    SymbolTables.moduleLines demangler module address =
      SymbolTables.moduleLines demangler { module with loadBias := 0 } (address - self.bias) := by
  have heq : module.loadBias = self.bias := Option.some.inj (hmodule.symm.trans hbias)
  have hzero : (0 : UInt64) ≤ address - self.bias := by simp
  unfold SymbolTables.moduleLines saturatingSubU64
  rw [heq, if_pos ha, if_pos hzero, UInt64.sub_zero]

theorem trueBias_iff_of_mapped (h : self.Loaded) {mapped : MappedSegment} {segment : Segment}
    (hfirst : self.mapped.head? = some mapped)
    (hfind : self.image.segments.find? (fun segment => page segment.offset = page mapped.segment.offset) =
      some segment) : self.TrueBias ↔ page segment.address = page mapped.segment.address := by
  obtain ⟨found, hfound, hbias, havma⟩ := search_first h hfirst
  obtain rfl : found = segment := Option.some.inj (hfound.symm.trans hfind)
  have hmem := mapSegments_subset (List.mem_filter.mp (List.mem_of_head? hfirst)).1
  have hfits : self.bias.toNat + (page mapped.segment.address).toNat < 2 ^ 64 := by
    have hle := UInt64.le_iff_toNat_le.mp (page_le mapped.segment.address)
    have hbound := h.fits mapped.segment hmem
    omega
  rw [← checkedSubU64_bias hfits]
  constructor
  · intro htrue
    rw [← hbias]
    exact htrue.loadBias
  · intro hsub
    have hloadBias := hbias.trans hsub
    refine ⟨hloadBias, ?_, lookup_of_loadBias hloadBias⟩
    have hbase : self.bias.toNat + self.image.relativeAddressBase.toNat ≤ u64Max :=
      le_trans h.baseFits.le (by decide)
    rw [havma, hsub, Option.bind_some, checkedAddU64_eq_some_iff]
    exact ⟨hbase, rfl⟩

end LoadedImage

/-- **The bias is the true one exactly if the first segment in the first mapping's page of the file is also in its page
of the memory.** -/
theorem load_bias_true_iff (loaded : LoadedImage) (h : loaded.Loaded) :
    loaded.TrueBias ↔ loaded.image.FirstInFilePage := by
  unfold ElfImage.FirstInFilePage
  rw [← LoadedImage.mapped_head]
  constructor
  · intro htrue
    cases hfirst : loaded.mapped.head? with
    | none => exact absurd htrue (LoadedImage.not_trueBias_of_unmapped h hfirst)
    | some mapped =>
      obtain ⟨segment, hfind, -⟩ := LoadedImage.search_first h hfirst
      exact ⟨mapped, segment, rfl, hfind, (LoadedImage.trueBias_iff_of_mapped h hfirst hfind).mp htrue⟩
  · rintro ⟨mapped, segment, hfirst, hfind, hpage⟩
    exact (LoadedImage.trueBias_iff_of_mapped h hfirst hfind).mpr hpage

/-! ## A read-only segment and a text segment -/

def readOnlySegment : Segment where
  offset := 0
  fileSize := 0x600
  address := 0
  permissions := [114, 45, 45, 112]

def textSegment (offset address : UInt64) : Segment where
  offset := offset
  fileSize := 0x200
  address := address
  permissions := [114, 45, 120, 112]

def imageOf (offset address : UInt64) (hc : ∀ segment ∈ [readOnlySegment, textSegment offset address],
      segment.offset.toNat % 4096 = segment.address.toNat % 4096)
    (hi : [readOnlySegment, textSegment offset address].Pairwise fun a b =>
      a.address.toNat + a.fileSize.toNat ≤ b.address.toNat) : LoadedImage where
  image :=
    { segments := [readOnlySegment, textSegment offset address]
      relativeAddressBase := 0
      congruent := hc
      increasing := hi }
  bias := 0x10000
  path := ⟨[97]⟩
  device := "08:01"
  inode := 7
  maps := [
    { start := 0x10000, stop := 0x11000, permissions := [114, 45, 45, 112], offset := 0, device := "08:01", inode := 7
      path := some ⟨[97]⟩ },
    { start := 0x11000, stop := 0x12000, permissions := [114, 45, 120, 112], offset := page offset, device := "08:01"
      inode := 7, path := some ⟨[97]⟩ }]

/-- Both segments start in the first page of the file. -/
def sharedPage : LoadedImage := imageOf 0x600 0x1600 (by decide) (by decide)

/-- Each segment starts in a page of its own. -/
def separatePages : LoadedImage := imageOf 0x1000 0x1000 (by decide) (by decide)

theorem imageOf_loaded {offset address : UInt64} {hc hi} (ha : address.toNat < 2 ^ 62)
    (hm : (imageOf offset address hc hi).mapped.map (imageOf offset address hc hi).line =
      (imageOf offset address hc hi).mappings) : (imageOf offset address hc hi).Loaded := by
  have hmerged : ∀ mappings : List MapLine, Merged mappings mappings := by
    intro mappings
    induction mappings with
    | nil => exact Merged.nil
    | cons mapping mappings ih => exact Merged.keep ih
  have haligned : page 0x10000 = 0x10000 := by decide
  have hbase : (0x10000 : UInt64).toNat + (0 : UInt64).toNat < 2 ^ 63 := by decide
  refine ⟨haligned, fun segment hsegment => ?_, hbase, hm ▸ hmerged _⟩
  have hbias : (imageOf offset address hc hi).bias.toNat = 0x10000 := rfl
  rw [hbias]
  rcases List.mem_cons.mp hsegment with rfl | hsegment
  · decide
  · rw [List.mem_singleton.mp hsegment]
    have hsize : (textSegment offset address).fileSize.toNat = 0x200 := rfl
    have haddress : (textSegment offset address).address.toNat = address.toNat := rfl
    omega

theorem load_bias_true_separatePages : separatePages.TrueBias :=
  (load_bias_true_iff separatePages (imageOf_loaded (by decide) (by decide +kernel))).mpr
    ⟨⟨textSegment 0x1000 0x1000, 0x2000⟩, textSegment 0x1000 0x1000, by decide +kernel, by decide +kernel, rfl⟩

theorem sharedPage_loads_elsewhere : sharedPage.Loaded ∧ sharedPage.bias = 0x10000 ∧
    elfLoadBias sharedPage.image.segments sharedPage.mappings = some 0x11000 ∧
    elfBaseAvma sharedPage.image sharedPage.mappings = some 0x11000 ∧ ¬ sharedPage.TrueBias := by
  have hbias : elfLoadBias sharedPage.image.segments sharedPage.mappings = some 0x11000 := by decide +kernel
  refine ⟨imageOf_loaded (by decide) (by decide +kernel), rfl, hbias, by decide +kernel, fun htrue => ?_⟩
  have heq := hbias.symm.trans htrue.loadBias
  revert heq
  decide +kernel

end RustProfile
