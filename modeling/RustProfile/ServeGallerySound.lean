import RustProfile.ServeGallery
import RustProfile.Lib.Interning

/-!
# Decoded stacks and samples are those of the file

A link leads to a lower index, so the walk ends, whatever the file holds, and
stays within the columns. In a well linked table it collects the stack from the
leaf, as far as the depth goes. The samples emitted are the first of each
thread, and what is missing is told.
-/

namespace RustProfile

/-! ## The walk -/

namespace SharedTables

section
variable (tables : SharedTables)

def functionAt (stackIndex : ℕ) : Option ℕ := ((tables.stackFrames[stackIndex]?).bind toUsize).bind tables.functionOf

structure WellLinked : Prop where
  offset : ∀ i < tables.stackCount, ∃ offset ≤ i, tables.prefixOffsets[i]? = some (offset : ℤ)
  function : ∀ i < tables.stackCount, ∃ function < tables.funcNames.length, tables.functionAt i = some function

/-- The functions of a stack, from the root to the leaf. -/
inductive RootPath : ℕ → List ℕ → Prop
  | root {i function : ℕ} : tables.prefixOffsets[i]? = some 0 → tables.functionAt i = some function →
      RootPath i [function]
  | child {i offset function : ℕ} {path : List ℕ} : tables.prefixOffsets[i]? = some (offset : ℤ) → 0 < offset →
      offset ≤ i → tables.functionAt i = some function → RootPath (i - offset) path → RootPath i (path ++ [function])

end

variable {tables : SharedTables}

theorem parentOf_lt {index parent : ℕ} {offset : ℤ} (h : parentOf index offset = some parent) : parent < index := by
  unfold parentOf at h
  split at h
  · obtain ⟨k, hk, hparent⟩ := Option.bind_eq_some_iff.mp h
    rw [toUsize_eq_some] at hk
    split at hparent
    · rw [Option.some.injEq] at hparent
      omega
    · cases hparent
  · cases h

theorem walk_none (rounds : ℕ) (reversed seen : List ℕ) : tables.walk rounds none reversed seen = some reversed := by
  cases rounds <;> rfl

theorem walk_succ (rounds index : ℕ) (reversed seen : List ℕ) : tables.walk (rounds + 1) (some index) reversed seen =
    if reversed.length = maxStackDepth ∨ index ∈ seen then some reversed
    else
      match (tables.stackFrames[index]?).bind toUsize with
      | none => some reversed
      | some frameIndex => (tables.prefixOffsets[index]?).bind fun offset =>
          tables.walk rounds (parentOf index offset) (reversed ++ (tables.functionOf frameIndex).toList)
            (index :: seen) := rfl

theorem getElem?_prefixOffsets {index : ℕ} (h : index < tables.stackCount) :
    ∃ offset, tables.prefixOffsets[index]? = some offset :=
  ⟨_, List.getElem?_eq_getElem (lt_of_lt_of_le h (min_le_left _ _))⟩

/-- **The walk ends and stays in range**, from any stack of any tables. -/
theorem walk_total : ∀ (index : ℕ), index < tables.stackCount → ∀ reversed seen : List ℕ,
    ∃ path, ∀ rounds, index < rounds → tables.walk rounds (some index) reversed seen = some path := by
  intro index
  induction index using Nat.strong_induction_on with
  | _ index ih =>
    intro hindex reversed seen
    obtain ⟨offset, hoffset⟩ := getElem?_prefixOffsets hindex
    by_cases hstop : reversed.length = maxStackDepth ∨ index ∈ seen
    · refine ⟨reversed, fun rounds hrounds => ?_⟩
      obtain ⟨rounds, rfl⟩ := Nat.exists_eq_succ_of_ne_zero (Nat.ne_zero_of_lt hrounds)
      rw [Nat.succ_eq_add_one, walk_succ, if_pos hstop]
    cases hframe : (tables.stackFrames[index]?).bind toUsize with
    | none =>
      refine ⟨reversed, fun rounds hrounds => ?_⟩
      obtain ⟨rounds, rfl⟩ := Nat.exists_eq_succ_of_ne_zero (Nat.ne_zero_of_lt hrounds)
      rw [Nat.succ_eq_add_one, walk_succ, if_neg hstop, hframe]
    | some frameIndex =>
      -- A parent comes before its child in the table, which is what the induction is on.
      have hnext : ∃ path, ∀ rounds, index ≤ rounds → tables.walk rounds (parentOf index offset)
          (reversed ++ (tables.functionOf frameIndex).toList) (index :: seen) = some path := by
        cases hparent : parentOf index offset with
        | none => exact ⟨_, fun rounds _ => walk_none rounds _ _⟩
        | some parent =>
          have hlt := parentOf_lt hparent
          obtain ⟨path, hpath⟩ := ih parent hlt (hlt.trans hindex) (reversed ++ (tables.functionOf frameIndex).toList)
            (index :: seen)
          exact ⟨path, fun rounds hrounds => hpath rounds (lt_of_lt_of_le hlt hrounds)⟩
      obtain ⟨path, hpath⟩ := hnext
      refine ⟨path, fun rounds hrounds => ?_⟩
      obtain ⟨rounds, rfl⟩ := Nat.exists_eq_succ_of_ne_zero (Nat.ne_zero_of_lt hrounds)
      rw [Nat.succ_eq_add_one, walk_succ, if_neg hstop, hframe]
      dsimp only
      rw [hoffset, Option.bind_some]
      exact hpath rounds (by omega)

theorem walk_step {index function : ℕ} {offset : ℤ} (hfunction : tables.functionAt index = some function)
    (hoffset : tables.prefixOffsets[index]? = some offset) {reversed seen : List ℕ}
    (hdepth : reversed.length ≠ maxStackDepth) (hseen : index ∉ seen) (rounds : ℕ) :
    tables.walk (rounds + 1) (some index) reversed seen =
      tables.walk rounds (parentOf index offset) (reversed ++ [function]) (index :: seen) := by
  obtain ⟨frameIndex, hframe, hfunction⟩ := Option.bind_eq_some_iff.mp hfunction
  rw [walk_succ, if_neg (not_or.mpr ⟨hdepth, hseen⟩), hframe]
  dsimp only
  rw [hoffset, Option.bind_some, hfunction]
  rfl

theorem walk_full {rounds index : ℕ} (h : index < rounds) {reversed : List ℕ} (hdepth : reversed.length = maxStackDepth)
    (seen : List ℕ) : tables.walk rounds (some index) reversed seen = some reversed := by
  obtain ⟨rounds, rfl⟩ := Nat.exists_eq_succ_of_ne_zero (Nat.ne_zero_of_lt h)
  rw [Nat.succ_eq_add_one, walk_succ, if_pos (Or.inl hdepth)]

/-- **The walk collects the stack from the leaf** until it is as deep as may be. -/
theorem walk_rootPath {index : ℕ} {path : List ℕ} (h : tables.RootPath index path) : ∀ {rounds : ℕ}
    {reversed seen : List ℕ}, index < rounds → reversed.length ≤ maxStackDepth → (∀ j ∈ seen, index < j) →
      tables.walk rounds (some index) reversed seen = some ((reversed ++ path.reverse).take maxStackDepth) := by
  induction h with
  | @root i function hoffset hfunction =>
    intro rounds reversed seen hrounds hlength hseen
    by_cases hdepth : reversed.length = maxStackDepth
    · rw [walk_full hrounds hdepth, ← hdepth, List.take_left]
    obtain ⟨rounds, rfl⟩ := Nat.exists_eq_succ_of_ne_zero (Nat.ne_zero_of_lt hrounds)
    have hnew : i ∉ seen := fun hmem => (hseen i hmem).false
    have hlast : parentOf i 0 = none := rfl
    rw [Nat.succ_eq_add_one, walk_step hfunction hoffset hdepth hnew, hlast, walk_none, List.reverse_singleton]
    rw [List.take_of_length_le]
    rw [List.length_append, List.length_singleton]
    omega
  | @child i offset function path hoffset hpos hle hfunction _ ih =>
    intro rounds reversed seen hrounds hlength hseen
    by_cases hdepth : reversed.length = maxStackDepth
    · rw [walk_full hrounds hdepth, ← hdepth, List.take_left]
    obtain ⟨rounds, rfl⟩ := Nat.exists_eq_succ_of_ne_zero (Nat.ne_zero_of_lt hrounds)
    have hnew : i ∉ seen := fun hmem => (hseen i hmem).false
    have hparent : parentOf i offset = some (i - offset) := by
      unfold parentOf
      rw [if_pos (by exact_mod_cast hpos), toUsize_eq_some.mpr rfl, Option.bind_some, if_pos hle]
    rw [Nat.succ_eq_add_one, walk_step hfunction hoffset hdepth hnew, hparent, List.reverse_append, ← List.append_assoc]
    refine ih (by omega) ?_ fun j hj => ?_
    · rw [List.length_append, List.length_singleton]
      omega
    · rcases List.mem_cons.mp hj with rfl | hj
      · omega
      · have := hseen j hj
        omega

theorem exists_rootPath (h : tables.WellLinked) : ∀ index < tables.stackCount, ∃ path, tables.RootPath index path := by
  intro index
  induction index using Nat.strong_induction_on with
  | _ index ih =>
    intro hindex
    obtain ⟨offset, hle, hoffset⟩ := h.offset index hindex
    obtain ⟨function, -, hfunction⟩ := h.function index hindex
    rcases Nat.eq_zero_or_pos offset with hzero | hpos
    · rw [hzero] at hoffset
      exact ⟨_, RootPath.root hoffset hfunction⟩
    · obtain ⟨path, hpath⟩ := ih (index - offset) (by omega) (by omega)
      exact ⟨_, RootPath.child hoffset hpos hle hfunction hpath⟩

structure Decoded (tables : SharedTables) (stackTable : List (List ℕ)) : Prop where
  length : stackTable.length = tables.stackCount
  paths : tables.WellLinked → ∀ i < tables.stackCount, ∃ path, tables.RootPath i path ∧
    stackTable[i]? = some (path.drop (path.length - maxStackDepth))

theorem decodeStacks_decoded (tables : SharedTables) : ∃ stackTable, tables.decodeStacks = some stackTable ∧
    tables.Decoded stackTable := by
  have hrounds : tables.stackCount ≤ tables.prefixOffsets.length := min_le_left _ _
  have htotal : ∀ i ∈ List.range tables.stackCount, ∃ path,
      (tables.walk tables.prefixOffsets.length (some i) [] []).map List.reverse = some path := by
    intro i hi
    have hi := List.mem_range.mp hi
    obtain ⟨path, hpath⟩ := walk_total i hi [] []
    exact ⟨path.reverse, by rw [hpath _ (hi.trans_le hrounds), Option.map_some]⟩
  obtain ⟨stackTable, hstackTable⟩ := Interning.exists_mapM htotal
  have hforall := Interning.forall₂_of_mapM hstackTable
  have hlength : stackTable.length = tables.stackCount := by
    rw [hforall.length_eq, List.length_range]
  refine ⟨stackTable, hstackTable, hlength, fun hlinked i hi => ?_⟩
  obtain ⟨path, hpath⟩ := exists_rootPath hlinked i hi
  have hwalk := @walk_rootPath tables i path hpath _ [] [] (hi.trans_le hrounds) (Nat.zero_le _)
    fun j hj => absurd hj List.not_mem_nil
  have hget := (List.forall₂_iff_get.mp hforall).2 i (by omega) (by rw [List.length_range]; exact hi)
  rw [List.get_eq_getElem, List.get_eq_getElem, List.getElem_range, hwalk, Option.map_some, Option.some.injEq] at hget
  refine ⟨path, hpath, ?_⟩
  rw [List.getElem?_eq_getElem (by omega), ← hget, List.nil_append, List.reverse_take, List.reverse_reverse,
    List.length_reverse]

/-- The second link leads nowhere. -/
example : decodeStacks ⟨[], [0, 1, 7], [1, 0, 1], [4, 2], []⟩ = some [[2], [2, 4], [2]] := by decide

end SharedTables

/-! ## The threads -/

section
variable {F : Type} [F64 F]

def elapsedAfter (deltas : List F) (k : ℕ) : F := (deltas.take k).foldl F64.add F64.zero

theorem timesFrom_eq : ∀ {deltas : List F} {elapsed : F} {times : List F}, timesFrom elapsed deltas = .ok times →
    times = (List.range deltas.length).map fun k => (deltas.take (k + 1)).foldl F64.add elapsed
  | [], elapsed, times, h => by
    cases h
    rfl
  | delta :: deltas, elapsed, times, h => by
    unfold timesFrom at h
    split at h
    · cases h
    split at h
    · cases h
    obtain ⟨rest, hrest, hcons⟩ := Except.bind_eq_ok.mp h
    cases hcons
    rw [List.length_cons, List.range_succ_eq_map, List.map_cons, List.map_map, timesFrom_eq hrest]
    rfl

structure ThreadColumns.Emits (columns : ThreadColumns F) (n : ℕ) (thread : ViewerThread F) : Prop where
  stack : n ≤ columns.stack.length
  weight : n ≤ columns.weight.length
  timeDeltas : n ≤ columns.timeDeltas.length
  times : thread.timesMillis = (List.range n).map fun k => elapsedAfter columns.timeDeltas (k + 1)
  weights : thread.weights = columns.weight.take n
  stackIndices : thread.stackIndices = (columns.stack.take n).map (·.bind toUsize)

theorem decode_emits {columns : ThreadColumns F} {n : ℕ} (hn : n ≤ columns.available) {thread : ViewerThread F}
    (h : columns.decode n = .ok thread) : columns.Emits n thread := by
  unfold ThreadColumns.available at hn
  unfold ThreadColumns.decode at h
  obtain ⟨times, htimes, hthread⟩ := Except.bind_eq_ok.mp h
  cases hthread
  refine ⟨by omega, by omega, by omega, ?_, rfl, rfl⟩
  rw [timesFrom_eq htimes, List.length_take, Nat.min_eq_left (by omega)]
  refine List.map_congr_left fun k hk => ?_
  have hk := List.mem_range.mp hk
  rw [List.take_take, Nat.min_eq_left hk]
  rfl

theorem ThreadColumns.Emits.length {columns : ThreadColumns F} {n : ℕ} {thread : ViewerThread F}
    (h : columns.Emits n thread) : thread.timesMillis.length = n := by
  rw [h.times, List.length_map, List.length_range]

/-- What is known of the threads decoded so far; each is paired with its columns. -/
structure Emitted (emissions : List (ThreadColumns F × ViewerThread F)) (decoded : DecodedThreads F) : Prop where
  threads : decoded.threads = emissions.map Prod.snd
  emits : ∀ e ∈ emissions, ∃ n, e.1.Emits n e.2
  count : decoded.sampleCount = (decoded.threads.map fun thread => thread.timesMillis.length).sum
  bound : decoded.sampleCount ≤ maxViewerSamples

def Shortened (emissions : List (ThreadColumns F × ViewerThread F)) : Prop :=
  ∃ e ∈ emissions, e.2.timesMillis.length < e.1.available

theorem emitted_start : Emitted ([] : List (ThreadColumns F × ViewerThread F)) {} :=
  ⟨rfl, fun _ h => absurd h List.not_mem_nil, rfl, Nat.zero_le _⟩

omit [F64 F] in
theorem shortened_append {emissions : List (ThreadColumns F × ViewerThread F)} {e : ThreadColumns F × ViewerThread F} :
    Shortened (emissions ++ [e]) ↔ Shortened emissions ∨ e.2.timesMillis.length < e.1.available := by
  unfold Shortened
  simp only [List.mem_append, List.mem_singleton, or_and_right, exists_or, exists_eq_left]

theorem Emitted.push {emissions : List (ThreadColumns F × ViewerThread F)} {decoded next : DecodedThreads F}
    (h : Emitted emissions decoded) (htruncated : decoded.truncated = true ↔ Shortened emissions)
    {columns : ThreadColumns F} (hpush : decoded.push columns = .ok next) :
    ∃ thread, Emitted (emissions ++ [(columns, thread)]) next ∧
      (next.truncated = true ↔ Shortened (emissions ++ [(columns, thread)])) := by
  unfold DecodedThreads.push at hpush
  obtain ⟨thread, hthread, hnext⟩ := Except.bind_eq_ok.mp hpush
  cases hnext
  have hemits := decode_emits (min_le_left _ _) hthread
  refine ⟨thread, ⟨?_, ?_, ?_, ?_⟩, ?_⟩
  · rw [List.map_append, h.threads]
    rfl
  · exact List.forall_mem_append.mpr ⟨h.emits, List.forall_mem_singleton.mpr ⟨_, hemits⟩⟩
  · dsimp only
    rw [List.map_append, List.sum_append, ← h.count, List.map_singleton, List.sum_singleton, hemits.length]
  · have := h.bound
    dsimp only
    omega
  · rw [shortened_append, ← htruncated, hemits.length]
    simp

/-- **The loop over the threads** stops when the samples are enough. -/
theorem decodeThreads_emitted {total : ℕ} :
    ∀ {rest : List (Value F)} {emissions : List (ThreadColumns F × ViewerThread F)}
    {decoded final : DecodedThreads F}, Emitted emissions decoded → (decoded.truncated = true ↔ Shortened emissions) →
      emissions.length + rest.length = total → decodeThreads total decoded rest = .ok final →
        ∃ more, Emitted (emissions ++ more) final ∧
          (more.map fun e => Except.ok e.1) <+: rest.map readThread ∧
          (final.truncated = true ↔ Shortened (emissions ++ more) ∨ final.threads.length < total)
  | [], emissions, decoded, final, h, htruncated, htotal, hloop => by
    cases hloop
    refine ⟨[], by rwa [List.append_nil], List.nil_prefix, ?_⟩
    have hlength : ¬ decoded.threads.length < total := by
      rw [h.threads, List.length_map]
      simp at htotal
      omega
    rw [List.append_nil, htruncated, or_iff_left hlength]
  | source :: rest, emissions, decoded, final, h, htruncated, htotal, hloop => by
    rw [List.length_cons] at htotal
    unfold decodeThreads at hloop
    obtain ⟨columns, hcolumns, hloop⟩ := Except.bind_eq_ok.mp hloop
    obtain ⟨next, hpush, hloop⟩ := Except.bind_eq_ok.mp hloop
    obtain ⟨thread, hnext, hnextTruncated⟩ := h.push htruncated hpush
    split at hloop
    -- A limit is reached: the rest of the threads is not read.
    · cases hloop
      refine ⟨[(columns, thread)], ⟨hnext.threads, hnext.emits, hnext.count, hnext.bound⟩, ?_, ?_⟩
      · rw [List.map_cons, List.map_cons, hcolumns]
        exact List.cons_prefix_cons.mpr ⟨rfl, List.nil_prefix⟩
      · dsimp only
        rw [Bool.or_eq_true, hnextTruncated, decide_eq_true_eq]
    · have hlength : (emissions ++ [(columns, thread)]).length + rest.length = total := by
        rw [List.length_append, List.length_singleton]
        omega
      obtain ⟨more, hfinal, hprefix, hfinalTruncated⟩ := decodeThreads_emitted hnext hnextTruncated hlength hloop
      rw [List.append_assoc] at hfinal hfinalTruncated
      refine ⟨(columns, thread) :: more, hfinal, ?_, hfinalTruncated⟩
      rw [List.map_cons, List.map_cons, hcolumns]
      exact List.cons_prefix_cons.mpr ⟨rfl, hprefix⟩

/-! ## The profile -/

def ThreadColumns.Aligned (columns : ThreadColumns F) : Prop :=
  columns.weight.length = columns.stack.length ∧ columns.timeDeltas.length = columns.stack.length

omit [F64 F] in
theorem ThreadColumns.Aligned.available {columns : ThreadColumns F} (h : columns.Aligned) :
    columns.available = columns.stack.length := by
  unfold ThreadColumns.available
  rw [h.1, h.2, min_self, min_self]

/-- What the viewer gets of the threads; each one emitted is paired with its columns. -/
structure ThreadsDecoded (sources : List (Value F)) (profile : ViewerProfile F)
    (emissions : List (ThreadColumns F × ViewerThread F)) : Prop where
  threads : profile.threads = emissions.map Prod.snd
  columns : (emissions.map fun e => Except.ok e.1) <+: sources.map readThread
  emits : ∀ e ∈ emissions, ∃ n, e.1.Emits n e.2
  count : profile.sampleCount = (profile.threads.map fun thread => thread.timesMillis.length).sum
  bound : profile.sampleCount ≤ maxViewerSamples
  truncated : (∀ e ∈ emissions, e.1.Aligned) → (profile.truncated = true ↔
    (∃ e ∈ emissions, e.2.timesMillis.length < e.1.stack.length) ∨ profile.threads.length < sources.length)

theorem threadsDecoded {sources : List (Value F)} {decoded : DecodedThreads F} {profile : ViewerProfile F}
    (h : decodeThreads sources.length {} sources = .ok decoded) (hthreads : profile.threads = decoded.threads)
    (hcount : profile.sampleCount = decoded.sampleCount) (htruncated : profile.truncated = decoded.truncated) :
    ∃ emissions, ThreadsDecoded sources profile emissions := by
  have hstart : ({} : DecodedThreads F).truncated = true ↔ Shortened ([] : List (ThreadColumns F × ViewerThread F)) :=
    iff_of_false Bool.false_ne_true fun ⟨_, he, _⟩ => absurd he List.not_mem_nil
  obtain ⟨emissions, hemitted, hcolumns, hfinal⟩ := decodeThreads_emitted emitted_start hstart (Nat.zero_add _) h
  rw [List.nil_append] at hemitted hfinal
  refine ⟨emissions, hthreads.trans hemitted.threads, hcolumns, hemitted.emits, ?_, ?_, fun haligned => ?_⟩
  · rw [hcount, hthreads, hemitted.count]
  · rw [hcount]
    exact hemitted.bound
  · rw [htruncated, hthreads, hfinal]
    unfold Shortened
    refine or_congr_left (exists_congr fun e => and_congr_right fun he => ?_)
    rw [(haligned e he).available]

/-- **The viewer decodes stacks and samples faithfully**, and safely whatever the file holds. -/
theorem decodeRoot_faithful (root : Value F) :
    (∀ (tables : SharedTables) (i : ℕ), i < tables.stackCount →
      ∃ path, ∀ rounds, i < rounds → tables.walk rounds (some i) [] [] = some path) ∧
    ∃ outcome, decodeRoot root = some outcome ∧ ∀ profile, outcome = .ok profile →
      ∃ fields tables threads, root = .object fields ∧ readTables fields = .ok tables ∧
        readThreads fields = .ok threads ∧ tables.Decoded profile.stackTable ∧
        ∃ emissions, ThreadsDecoded threads profile emissions := by
  refine ⟨fun tables i hi => SharedTables.walk_total i hi [] [], ?_⟩
  unfold decodeRoot
  cases hroot : orElse root.asObject "profile root is not an object" with
  | error text => exact ⟨.error text, rfl, fun profile h => by cases h⟩
  | ok fields =>
    dsimp only
    cases htables : readTables fields with
    | error text => exact ⟨.error text, rfl, fun profile h => by cases h⟩
    | ok tables =>
      obtain ⟨stackTable, hstackTable, hdecoded⟩ := SharedTables.decodeStacks_decoded tables
      dsimp only
      rw [hstackTable, Option.map_some]
      refine ⟨_, rfl, fun profile hprofile => ?_⟩
      obtain ⟨threads, hthreads, hprofile⟩ := Except.bind_eq_ok.mp hprofile
      obtain ⟨decoded, hloop, hprofile⟩ := Except.bind_eq_ok.mp hprofile
      cases hprofile
      refine ⟨fields, tables, threads, ?_, htables, hthreads, hdecoded, threadsDecoded hloop rfl rfl rfl⟩
      cases root with
      | object entries =>
        cases hroot
        rfl
      | _ => cases hroot

end

end RustProfile
