import RustProfile.DockerBodySound
import RustProfile.Gallery
import RustProfile.MapLinesSound
import RustProfile.Record

/-!
# The gallery reads names back

The entry of a Firefox profile says the session, the index, the start and the
format of the window that the file was written for. The list has the newest
profiles, each of which its hash finds.
-/

namespace RustProfile

namespace Gallery

/-! ## Splitting from the right end -/

theorem rsplitOnce_append {c : Char} {after : List Char} (h : c ∉ after) (before : List Char) :
    rsplitOnce c (before ++ c :: after) = some (before, after) := by
  have hall : ∀ a ∈ after.reverse, decide (a ≠ c) = true := by
    intro a ha
    rw [decide_eq_true_eq]
    rintro rfl
    exact h (List.mem_reverse.mp ha)
  have hreverse : (before ++ c :: after).reverse = after.reverse ++ c :: before.reverse := by simp
  unfold rsplitOnce
  rw [hreverse, List.span_eq_takeWhile_dropWhile, List.takeWhile_append_of_pos hall, List.dropWhile_append_of_pos hall]
  simp

theorem rsplitn_basename (session : String) (index : ℕ) {started : ℤ} (h : 0 ≤ started) :
    rsplitn 3 '-' (basename session index started).toList =
      [(toString started).toList, (paddedIndex index).toList, session.toList] := by
  rw [basename_toList, rsplitn, rsplitOnce_append (notMem_started h)]
  dsimp only
  rw [rsplitn, rsplitOnce_append (notMem_paddedIndex index)]
  rfl

/-! ## Reading numbers -/

theorem parseDigits_ofDigitChars {digits : List Char} (hne : digits ≠ []) (hall : ∀ c ∈ digits, c.isDigit = true) :
    parseDigits digits = some (Nat.ofDigitChars 10 digits 0) := by
  unfold parseDigits
  rw [if_pos ⟨hne, List.all_eq_true.mpr hall⟩, Nat.ofDigitChars_eq_foldl]
  simp only [Nat.mul_comm]

theorem paddedIndex_ne_nil (index : ℕ) : (paddedIndex index).toList ≠ [] := by
  rw [paddedIndex_toList]
  exact List.append_ne_nil_of_right_ne_nil _ Nat.toDigits_ne_nil

theorem parseU64_paddedIndex {index : ℕ} (h : index ≤ u64Max) : parseU64 (paddedIndex index).toList = some index := by
  have hplus : (paddedIndex index).toList.head? ≠ some '+' := by
    intro hhead
    have hdigit := isDigit_of_mem_paddedIndex (List.mem_of_mem_head? hhead)
    revert hdigit
    decide
  unfold parseU64
  rw [if_neg hplus, parseDigits_ofDigitChars (paddedIndex_ne_nil index) fun _ => isDigit_of_mem_paddedIndex,
    ofDigitChars_paddedIndex]
  exact Option.filter_eq_some_iff.mpr ⟨rfl, decide_eq_true h⟩

theorem parseI64_started {started : ℤ} (h : 0 ≤ started) (hle : started ≤ i64Max) :
    parseI64 (toString started).toList = some started := by
  have htext : (toString started).toList = Nat.toDigits 10 started.toNat := by
    rw [toString_toList_of_nonneg h, Nat.toList_repr]
  have hdigit : ∀ c ∈ (toString started).toList, c.isDigit = true := by
    intro c hc
    rw [htext] at hc
    exact Nat.isDigit_of_mem_toDigits (by decide) (by decide) hc
  have hne : (toString started).toList ≠ [] := by
    rw [htext]
    exact Nat.toDigits_ne_nil
  have hvalue : parseDigits (toString started).toList = some started.toNat := by
    rw [parseDigits_ofDigitChars hne hdigit, htext, Nat.ofDigitChars_ten_toDigits]
  have hread : ((parseDigits (toString started).toList).filter (· ≤ i64Max)).map (Nat.cast : ℕ → ℤ) = some started := by
    have hfits : (some started.toNat).filter (· ≤ i64Max) = some started.toNat :=
      Option.filter_eq_some_iff.mpr ⟨rfl, decide_eq_true (by omega)⟩
    rw [hvalue, hfits, Option.map_some, Int.toNat_of_nonneg h]
  unfold parseI64
  split
  next heq =>
    have hminus := hdigit '-' (heq ▸ List.mem_cons_self)
    exact absurd hminus (by decide)
  next heq =>
    have hplus := hdigit '+' (heq ▸ List.mem_cons_self)
    exact absurd hplus (by decide)
  next => exact hread

/-! ## The name of a Firefox profile -/

theorem stripStart_append (start text : List Char) : stripStart start (start ++ text) = some text := by
  unfold stripStart
  rw [if_pos (List.prefix_append start text), List.drop_left]

theorem stripSuffix_other {suffix other : List Char} (hlength : suffix.length = other.length) (hne : suffix ≠ other)
    (text : List Char) : stripSuffix suffix (text ++ other) = none := by
  unfold stripSuffix
  refine if_neg fun hsuffix => hne ?_
  exact (List.suffix_of_suffix_length_le hsuffix (List.suffix_append text other) hlength.le).eq_of_length hlength

theorem firefoxName_toList (format : FirefoxProfileFormat) (name : String) :
    (FileKind.fileName (.firefox format) name).toList =
      "firefox-".toList ++ (name.toList ++ (match format with | .json => ".json.gz" | .jslb => ".jslb.gz").toList) := by
  cases format <;> simp [FileKind.fileName, FileKind.label, FileKind.extension, FirefoxProfileFormat.extension]

theorem stemOf_firefoxName (format : FirefoxProfileFormat) (name : String) :
    stemOf (FileKind.fileName (.firefox format) name).toList = name.toList := by
  unfold stemOf
  rw [firefoxName_toList, stripStart_append, Option.getD_some]
  cases format with
  | json =>
    dsimp only
    rw [stripSuffix_append]
    rfl
  | jslb =>
    dsimp only
    rw [stripSuffix_other (by decide) (by decide), stripSuffix_append]
    rfl

theorem isFirefoxProfile_fileName (format : FirefoxProfileFormat) (name : String) :
    isFirefoxProfile (FileKind.fileName (.firefox format) name) = true := by
  unfold isFirefoxProfile
  rw [firefoxName_toList, decide_eq_true_iff]
  refine ⟨List.prefix_append _ _, ?_⟩
  rw [← List.append_assoc]
  cases format with
  | json => exact .inl (List.suffix_append _ _)
  | jslb => exact .inr (List.suffix_append _ _)

theorem jslb_suffix_iff (format : FirefoxProfileFormat) (name : String) :
    ".jslb.gz".toList <:+ (FileKind.fileName (.firefox format) name).toList ↔ format = .jslb := by
  rw [firefoxName_toList, ← List.append_assoc]
  cases format with
  | json =>
    refine iff_of_false (fun h => ?_) (by decide)
    have hsame := List.suffix_of_suffix_length_le h (List.suffix_append _ ".json.gz".toList) (by decide)
    exact absurd (hsame.eq_of_length (by decide)) (by decide)
  | jslb => exact iff_of_true (List.suffix_append _ _) rfl

section
variable {F : Type} (files : GalleryFiles F)

/-- The numbers of samples that the diagnostics of a window tell, if its file can be read. -/
def countsOf (directory basename : String) : Option ℕ × Option ℕ :=
  match files.contents directory (FileKind.diagnostics.fileName basename) with
  | none => (none, none)
  | some bytes =>
    if bytes.length > maxDiagnosticBytes then (none, none)
    else
      match files.parseJson bytes with
      | none => (none, none)
      | some value =>
        (countOf (getField "firefox" value) "samples", countOf (getField "firefox" value) "dropped_samples")

/-- **The gallery reads a recording's names back.** -/
theorem entryFor_fileName (directory session : String) (index : ℕ) (started : ℤ) (format : FirefoxProfileFormat)
    (hindex : index ≤ u64Max) (hstarted : 0 ≤ started) (hfits : started ≤ i64Max) {name : List UInt8}
    (hname : name = utf8 (FileKind.fileName (.firefox format) (basename session index started)).toList) {length : ℕ}
    (hlength : files.length ⟨some directory, some name⟩ = .ok length) (hsize : length ≤ maxProfileBytes) :
    (fromUtf8 name).any isFirefoxProfile = true ∧
    entryFor files ⟨some directory, some name⟩ = .ok
      { id := files.digest (FileKind.fileName (.firefox format) (basename session index started))
        filename := FileKind.fileName (.firefox format) (basename session index started)
        session := session
        windowIndex := some index
        startedUnixNanos := some started
        format := Record.formatName format
        compressedBytes := length
        samples := (countsOf files directory (basename session index started)).1
        droppedSamples := (countsOf files directory (basename session index started)).2
        path := ⟨some directory, some name⟩ } := by
  have htext : fromUtf8 name = some (FileKind.fileName (.firefox format) (basename session index started)) := by
    rw [hname, fromUtf8_utf8, String.ofList_toList]
  refine ⟨by rw [htext]; exact isFirefoxProfile_fileName format _, ?_⟩
  have hformat : (if ".jslb.gz".toList <:+ (FileKind.fileName (.firefox format)
      (basename session index started)).toList then "jslb" else "json") = Record.formatName format := by
    simp only [jslb_suffix_iff]
    cases format <;> rfl
  unfold entryFor
  rw [hlength, Except.ok_bind, if_neg (not_lt.mpr hsize)]
  dsimp only [Option.bind_some]
  rw [htext, Except.context, Except.ok_bind, stemOf_firefoxName, rsplitn_basename session index hstarted, hformat]
  simp only [List.getElem?_cons_zero, List.getElem?_cons_succ, Option.bind_some, Option.getD_some,
    parseU64_paddedIndex hindex, parseI64_started hstarted hfits, String.ofList_toList]
  rfl

/-! ## The list -/

def foundIn (directory : String) (items : List (Option DirectoryItem)) : List ProfileEntry :=
  (items.take maxDirectoryEntries).filterMap (itemEntry files directory)

theorem newestFirst_sorted (found : List ProfileEntry) : (newestFirst found).Pairwise fun a b => b.key ≤ a.key := by
  have htotal : Std.Total fun a b : ProfileEntry => b.key ≤ a.key := ⟨fun a b => le_total b.key a.key⟩
  have htrans : IsTrans ProfileEntry fun a b => b.key ≤ a.key := ⟨fun _ _ _ hab hbc => hbc.trans hab⟩
  exact List.pairwise_insertionSort _ found

structure ItemFits (directory : String) (item : DirectoryItem) (entry : ProfileEntry) : Prop where
  filename : fromUtf8 item.name = some entry.filename
  id : entry.id = files.digest entry.filename
  path : entry.path = ⟨some directory, some item.name⟩

theorem itemEntry_fits {directory : String} {item : Option DirectoryItem} {entry : ProfileEntry}
    (h : itemEntry files directory item = some entry) :
    ∃ found, item = some found ∧ ItemFits files directory found entry := by
  cases item with
  | none => cases h
  | some found =>
    refine ⟨found, rfl, ?_⟩
    unfold itemEntry at h
    dsimp only at h
    split at h
    · cases hentry : entryFor files ⟨some directory, some found.name⟩ with
      | error message =>
        rw [hentry] at h
        cases h
      | ok read =>
        rw [hentry] at h
        cases h
        unfold entryFor at hentry
        obtain ⟨length, -, hentry⟩ := Except.bind_eq_ok.mp hentry
        split at hentry
        · cases hentry
        obtain ⟨filename, hfilename, hentry⟩ := Except.bind_eq_ok.mp hentry
        cases hentry
        refine ⟨?_, rfl, rfl⟩
        dsimp only [Option.bind_some] at hfilename
        cases htext : fromUtf8 found.name with
        | none =>
          rw [htext] at hfilename
          cases hfilename
        | some text =>
          rw [htext] at hfilename
          cases hfilename
          rfl
    · cases h

theorem fromUtf8_injective {bytes bytes' : List UInt8} {text : String} (h : fromUtf8 bytes = some text)
    (h' : fromUtf8 bytes' = some text) : bytes = bytes' := by
  have hbytes : ∀ {bytes : List UInt8}, fromUtf8 bytes = some text → text.toByteArray = bytes.toByteArray := by
    intro bytes h
    unfold fromUtf8 String.fromUTF8? at h
    split at h
    · cases h
      rfl
    · cases h
  exact List.toByteArray_inj.mp ((hbytes h).symm.trans (hbytes h'))

/-- Two entries of one directory with the same file name are the same. -/
theorem entry_eq_of_filename {directory : String} {items : List (Option DirectoryItem)}
    (hdistinct : (items.filterMap fun item => item.map DirectoryItem.name).Nodup) {entry entry' : ProfileEntry}
    (hmem : entry ∈ foundIn files directory items) (hmem' : entry' ∈ foundIn files directory items)
    (hname : entry.filename = entry'.filename) : entry = entry' := by
  obtain ⟨item, hitem, hentry⟩ := List.mem_filterMap.mp hmem
  obtain ⟨item', hitem', hentry'⟩ := List.mem_filterMap.mp hmem'
  obtain ⟨found, rfl, hfits⟩ := itemEntry_fits files hentry
  obtain ⟨found', rfl, hfits'⟩ := itemEntry_fits files hentry'
  have hbytes : found.name = found'.name := fromUtf8_injective hfits.filename (hname ▸ hfits'.filename)
  have hmap : ((items.filterMap id).map DirectoryItem.name).Nodup := by
    rw [List.map_filterMap]
    exact hdistinct
  have hsame : found = found' := List.inj_on_of_nodup_map hmap
    (List.mem_filterMap.mpr ⟨_, List.mem_of_mem_take hitem, rfl⟩)
    (List.mem_filterMap.mpr ⟨_, List.mem_of_mem_take hitem', rfl⟩) hbytes
  subst hsame
  exact Option.some.inj (hentry.symm.trans hentry')

/-- **The gallery lists the newest profiles**, and finds each that it lists. -/
theorem gallery_lists (directory : String) (items : List (Option DirectoryItem))
    (hitems : files.readDir directory = .ok items)
    (hdistinct : (items.filterMap fun item => item.map DirectoryItem.name).Nodup)
    (hdigest : ∀ entry ∈ foundIn files directory items, ∀ entry' ∈ foundIn files directory items,
      files.digest entry.filename = files.digest entry'.filename → entry.filename = entry'.filename) :
    ∃ listed rest, entries files (.directory directory) = .ok listed ∧
      (listed ++ rest).Perm (foundIn files directory items) ∧ listed.length ≤ maxGalleryProfiles ∧
      (rest ≠ [] → listed.length = maxGalleryProfiles) ∧ listed.Pairwise (fun a b => b.key ≤ a.key) ∧
      (∀ a ∈ listed, ∀ b ∈ rest, b.key ≤ a.key) ∧
      ∀ entry ∈ listed, find files (.directory directory) entry.id = .ok (some entry) := by
  have hsorted := newestFirst_sorted (foundIn files directory items)
  have hperm : (newestFirst (foundIn files directory items)).Perm (foundIn files directory items) :=
    List.perm_insertionSort _ _
  have hentries : entries files (.directory directory) =
      .ok ((newestFirst (foundIn files directory items)).take maxGalleryProfiles) := by
    unfold entries foundEntries
    dsimp only
    rw [hitems]
    rfl
  rw [← List.take_append_drop maxGalleryProfiles (newestFirst (foundIn files directory items))] at hsorted hperm
  -- What is cut off is no newer than anything listed: it comes after it in one sorted list.
  obtain ⟨htake, -, hacross⟩ := List.pairwise_append.mp hsorted
  refine ⟨_, _, hentries, hperm, List.length_take_le _ _, fun hrest => ?_, htake, hacross, fun entry hentry => ?_⟩
  · have hpos := List.length_pos_iff.mpr hrest
    rw [List.length_drop] at hpos
    rw [List.length_take]
    omega
  · unfold find
    rw [hentries]
    refine congrArg Except.ok ?_
    dsimp only
    cases hfind : ((newestFirst (foundIn files directory items)).take maxGalleryProfiles).find? (·.id = entry.id) with
    | none => exact absurd (List.find?_eq_none.mp hfind entry hentry) (by simp)
    | some other =>
      have hother : other ∈ foundIn files directory items :=
        hperm.mem_iff.mp (List.mem_append_left _ (List.mem_of_find?_eq_some hfind))
      have hmem : entry ∈ foundIn files directory items := hperm.mem_iff.mp (List.mem_append_left _ hentry)
      have hid : other.id = entry.id := by simpa using List.find?_some hfind
      obtain ⟨item, -, hitem⟩ := List.mem_filterMap.mp hother
      obtain ⟨item', -, hitem'⟩ := List.mem_filterMap.mp hmem
      obtain ⟨_, _, hfits⟩ := itemEntry_fits files hitem
      obtain ⟨_, _, hfits'⟩ := itemEntry_fits files hitem'
      have hname := hdigest other hother entry hmem (hfits.id.symm.trans (hid.trans hfits'.id))
      rw [entry_eq_of_filename files hdistinct hother hmem hname]

end

/-! Two windows of one session in a directory with something else. -/

def twoItems : List (Option DirectoryItem) :=
  [some ⟨utf8 "firefox-1a-7-000000-40.json.gz".toList, some true⟩, none, some ⟨utf8 "notes.txt".toList, some true⟩,
    some ⟨utf8 "firefox-1a-7-000001-90.jslb.gz".toList, some true⟩]

def twoProfiles : GalleryFiles ℕ where
  readDir := fun _ => .ok twoItems
  display := fun _ => "out"
  length := fun _ => .ok 100
  contents := fun _ _ => none
  parseJson := fun _ => none
  digest := fun filename => "#" ++ filename

theorem entryFor_fileName_jslb : ∃ entry,
    entryFor twoProfiles ⟨some "out", some (utf8 "firefox-1a-7-000001-90.jslb.gz".toList)⟩ = .ok entry ∧
      entry.session = "1a-7" ∧ entry.windowIndex = some 1 ∧ entry.startedUnixNanos = some 90 ∧ entry.format = "jslb" :=
  ⟨_, (entryFor_fileName twoProfiles "out" "1a-7" 1 90 .jslb (by decide) (by decide) (by decide) rfl rfl
    (by decide)).2, rfl, rfl, rfl, rfl⟩

theorem gallery_lists_two : ∃ listed, entries twoProfiles (.directory "out") = .ok listed ∧
    listed.map (·.windowIndex) = [some 1, some 0] ∧
    ∀ entry ∈ listed, find twoProfiles (.directory "out") entry.id = .ok (some entry) := by
  have hdigest : ∀ entry ∈ foundIn twoProfiles "out" twoItems, ∀ entry' ∈ foundIn twoProfiles "out" twoItems,
      twoProfiles.digest entry.filename = twoProfiles.digest entry'.filename → entry.filename = entry'.filename := by
    intro entry _ entry' _ h
    have hlist := congrArg String.toList h
    exact String.toList_inj.mp (by simpa [twoProfiles, String.toList_append] using hlist)
  obtain ⟨listed, rest, hentries, -, -, -, -, -, hfind⟩ :=
    gallery_lists twoProfiles "out" twoItems rfl (by decide +kernel) hdigest
  have hindices : (entries twoProfiles (.directory "out")).map (fun listed => listed.map (·.windowIndex)) =
      .ok [some 1, some 0] := by decide +kernel
  rw [hentries] at hindices
  exact ⟨listed, hentries, Except.ok.inj hindices, hfind⟩

end Gallery

end RustProfile
