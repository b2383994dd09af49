import RustProfile.AtomicWrite

/-!
# What a crash leaves of the outputs

However calls of `atomic_write`, removals and crashes interleave, a path refers
to nothing, to what was there at the start, or to the whole of what one call was
to write to it. What a call wrote stays once it has returned.
-/

namespace RustProfile

namespace AtomicWrite

open Durable Run

/-- What a path may hold: what it held at the start, or what was to be written to it. -/
def Offered (files : Files String (List UInt8)) (offered : List (String × List UInt8)) (name : String)
    (contents : List UInt8) : Prop :=
  (name, contents) ∈ offered ∨ ∃ i, files.entries name = some i ∧ files.contents i = contents

structure WriterFits (files : Files String (List UInt8)) (offered : List (String × List UInt8))
    (call : Writer) : Prop where
  path : ¬IsTemporary call.path
  temporary : IsTemporary call.temporary
  wanted : (call.path, call.whole) ∈ offered
  old : call.file < files.next
  hidden : call.phase ≠ .renamed → ∀ name, ¬IsTemporary name → some call.file ∉ files.since name
  entry : call.phase ≠ .renamed → files.entries call.temporary = some call.file
  writing : call.phase = .writing → files.contents call.file ++ call.pieces.flatten = call.whole
  done : call.phase ≠ .writing → files.contents call.file = call.whole ∧ files.synced call.file = true

structure WriteInv (files : Files String (List UInt8)) (s : OutputDirectory) : Prop where
  holds : ∀ name, ¬IsTemporary name → s.files.Holds (Offered files s.offered name) name
  writers : ∀ writer call, s.writers.lookup writer = some call → WriterFits s.files s.offered call
  alone : ∀ writer writer' call call', s.writers.lookup writer = some call → s.writers.lookup writer' = some call' →
    call.file = call'.file → writer = writer'

theorem writeInv_start {files : Files String (List UInt8)} (h : files.AtRest) : WriteInv files ⟨files, ∅, [], []⟩ where
  holds := fun name _ => by
    obtain ⟨hsynced, hsince, hold⟩ := h
    have hentry : ∀ i, some i ∈ files.since name → files.entries name = some i := fun i hi => by
      rw [hsince, List.mem_singleton] at hi
      exact hi.symm
    refine ⟨by rw [hsince]; exact List.mem_singleton_self _, fun i _ => hsynced i, fun i hi => ?_, fun i hi => ?_⟩
    · exact .inr ⟨i, hentry i hi, rfl⟩
    · exact hold name i (hentry i hi)
  writers := fun _ _ h => by cases h
  alone := fun _ _ _ _ h => by cases h

section
variable {files : Files String (List UInt8)} {s t : OutputDirectory} {writer : ℕ} {call : Writer}

theorem writerAt_eq_some {phase : WriterPhase} (h : s.writerAt writer phase = some call) :
    s.writers.lookup writer = some call ∧ call.phase = phase := by
  obtain ⟨hlookup, hphase⟩ := Option.filter_eq_some_iff.mp h
  exact ⟨hlookup, by simpa using hphase⟩

namespace WriterFits

variable {offered : List (String × List UInt8)} (h : WriterFits files offered call)
include h

/-- A name that is not the temporary one comes to refer to another file, or to none. -/
theorem refer {name : String} {entry : Option ℕ} (hname : call.phase ≠ .renamed → name ≠ call.temporary)
    (hentry : call.phase ≠ .renamed → entry ≠ some call.file) : WriterFits (files.refer name entry) offered call := by
  refine { h with hidden := fun hphase other hother => ?_, entry := fun hphase => ?_ }
  · simp only [Files.refer]
    split
    · rw [List.mem_cons, not_or]
      exact ⟨(hentry hphase).symm, h.hidden hphase other hother⟩
    · exact h.hidden hphase other hother
  · simp only [Files.refer, if_neg (hname hphase).symm]
    exact h.entry hphase

theorem syncDirectory (hcurrent : ∀ name, ¬IsTemporary name → files.entries name ∈ files.since name) :
    WriterFits files.syncDirectory offered call :=
  { h with
    hidden := fun hphase name hname hmem => by
      refine h.hidden hphase name hname ?_
      rw [List.mem_singleton.mp hmem]
      exact hcurrent name hname }

/-- The temporary names of two calls differ. -/
theorem temporary_ne {other : Writer} (hother : WriterFits files offered other) (hphase : call.phase ≠ .renamed)
    (hphase' : other.phase ≠ .renamed) (hfile : call.file ≠ other.file) : call.temporary ≠ other.temporary := by
  intro hsame
  have hentry := h.entry hphase
  rw [hsame, hother.entry hphase'] at hentry
  exact hfile (Option.some.inj hentry).symm

end WriterFits

namespace WriteInv

variable (h : WriteInv files s)
include h

theorem starts {path temporary : String} {pieces : List (List UInt8)}
    (hstart : s.starts writer path temporary pieces = some t) : WriteInv files t := by
  unfold OutputDirectory.starts at hstart
  split at hstart
  case isFalse => cases hstart
  case isTrue hfree =>
    obtain ⟨hwriter, hentry, htemporary, hpath⟩ := hfree
    cases hstart
    have hname : ∀ name, ¬IsTemporary name → name ≠ temporary := by
      rintro name hname rfl
      exact hname htemporary
    have hnew : ∀ name, ¬IsTemporary name → some s.files.next ∉ (s.files.create temporary []).since name :=
      fun name hne hmem => by
        simp only [Files.create, Files.refer, if_neg (hname name hne)] at hmem
        exact absurd ((h.holds name hne).old _ hmem) (lt_irrefl _)
    refine ⟨fun name hne => ?_, fun w c hc => ?_, fun w w' c c' hc hc' hfile => ?_⟩
    · refine ((h.holds name hne).create (hname name hne) []).mono fun d hd => ?_
      exact hd.imp_left fun hmem => List.mem_append_left _ hmem
    · obtain ⟨rfl, rfl⟩ | ⟨-, hc⟩ := Table.lookup_insert_eq_some.mp hc
      · refine ⟨hpath, htemporary, List.mem_append_right _ (List.mem_singleton_self _), Nat.lt_succ_self _,
          fun _ => hnew, fun _ => ?_, fun _ => ?_, fun hphase => absurd rfl hphase⟩
        · simp [Files.create, Files.refer]
        · simp [Files.create]
      · obtain ⟨hp, ht, hoffered, hold, hhidden, he, hwriting, hdone⟩ := h.writers _ _ hc
        have hfile : c.file ≠ s.files.next := Nat.ne_of_lt hold
        refine ⟨hp, ht, List.mem_append_left _ hoffered, Nat.lt_succ_of_lt hold, fun hphase name hne => ?_,
          fun hphase => ?_, fun hphase => ?_, fun hphase => ?_⟩
        · simp only [Files.create, Files.refer, if_neg (hname name hne)]
          exact hhidden hphase name hne
        · have htemp : c.temporary ≠ temporary := by
            rintro heq
            cases hentry.symm.trans (heq ▸ he hphase)
          simp only [Files.create, Files.refer, if_neg htemp]
          exact he hphase
        · simp only [Files.create, if_neg hfile]
          exact hwriting hphase
        · simp only [Files.create, if_neg hfile]
          exact hdone hphase
    · have hless : ∀ {w c}, s.writers.lookup w = some c → c.file ≠ s.files.next :=
        fun hc => Nat.ne_of_lt (h.writers _ _ hc).old
      obtain ⟨rfl, rfl⟩ | ⟨-, hold⟩ := Table.lookup_insert_eq_some.mp hc
      · obtain ⟨rfl, -⟩ | ⟨-, hold'⟩ := Table.lookup_insert_eq_some.mp hc'
        · rfl
        · exact absurd hfile.symm (hless hold')
      · obtain ⟨rfl, rfl⟩ | ⟨-, hold'⟩ := Table.lookup_insert_eq_some.mp hc'
        · exact absurd hfile (hless hold)
        · exact h.alone _ _ _ _ hold hold' hfile

/-- A call goes on with its file, and the others are as before. -/
theorem goesOn (hcall : s.writers.lookup writer = some call) (next : Writer) (hfile : next.file = call.file)
    (hwriters : t.writers = s.writers.insert writer next) (hnext : WriterFits t.files t.offered next)
    (hholds : ∀ name, ¬IsTemporary name → t.files.Holds (Offered files t.offered name) name)
    (hothers : ∀ w c, w ≠ writer → s.writers.lookup w = some c → c.file ≠ call.file → WriterFits t.files t.offered c) :
    WriteInv files t where
  holds := hholds
  writers := fun w c hc => by
    rw [hwriters] at hc
    obtain ⟨rfl, rfl⟩ | ⟨hne, hold⟩ := Table.lookup_insert_eq_some.mp hc
    · exact hnext
    · exact hothers w c hne hold fun hsame => hne (h.alone _ _ _ _ hold hcall hsame)
  alone := fun w w' c c' hc hc' hsame => by
    rw [hwriters] at hc hc'
    obtain ⟨rfl, rfl⟩ | ⟨-, hold⟩ := Table.lookup_insert_eq_some.mp hc
    · obtain ⟨rfl, -⟩ | ⟨-, hold'⟩ := Table.lookup_insert_eq_some.mp hc'
      · rfl
      · exact h.alone _ _ _ _ hcall hold' (hfile.symm.trans hsame)
    · obtain ⟨rfl, rfl⟩ | ⟨-, hold'⟩ := Table.lookup_insert_eq_some.mp hc'
      · exact h.alone _ _ _ _ hold hcall (hsame.trans hfile)
      · exact h.alone _ _ _ _ hold hold' hsame

/-- A call returns, and the others are as before. -/
theorem ends (hcall : s.writers.lookup writer = some call) (hwriters : t.writers = s.writers.erase writer)
    (hholds : ∀ name, ¬IsTemporary name → t.files.Holds (Offered files t.offered name) name)
    (hothers : ∀ w c, s.writers.lookup w = some c → c.file ≠ call.file → WriterFits t.files t.offered c) :
    WriteInv files t where
  holds := hholds
  writers := fun w c hc => by
    rw [hwriters, Table.lookup_erase_eq_some] at hc
    exact hothers w c hc.2 fun hsame => hc.1 (h.alone _ _ _ _ hc.2 hcall hsame)
  alone := fun w w' c c' hc hc' hsame => by
    rw [hwriters, Table.lookup_erase_eq_some] at hc hc'
    exact h.alone _ _ _ _ hc.2 hc'.2 hsame

theorem writes (hcall : s.writers.lookup writer = some call) (hphase : call.phase = .writing) {piece : List UInt8}
    {pieces : List (List UInt8)} (hpieces : call.pieces = piece :: pieces) :
    WriteInv files { s with
      files := s.files.write call.file (s.files.contents call.file ++ piece)
      writers := s.writers.insert writer { call with pieces := pieces } } := by
  have hfits := h.writers _ _ hcall
  have hunnamed : call.phase ≠ .renamed := by rw [hphase]; decide
  refine h.goesOn hcall { call with pieces := pieces } rfl rfl ?_ (fun name hname => ?_) fun w c _ hc hfile => ?_
  · refine { hfits with writing := fun _ => ?_, done := fun hnot => absurd hphase hnot }
    simp only [Files.write, if_pos]
    rw [List.append_assoc, ← hfits.writing hphase, hpieces, List.flatten_cons]
  · exact (h.holds name hname).write (hfits.hidden hunnamed name hname) _
  · refine { h.writers _ _ hc with writing := fun hwriting => ?_, done := fun hdone => ?_ }
    · simp only [Files.write, if_neg hfile]
      exact (h.writers _ _ hc).writing hwriting
    · simp only [Files.write, if_neg hfile]
      exact (h.writers _ _ hc).done hdone

theorem syncs (hcall : s.writers.lookup writer = some call) (hphase : call.phase = .writing)
    (hpieces : call.pieces = []) :
    WriteInv files { s with
      files := s.files.sync call.file
      writers := s.writers.insert writer { call with phase := .synced } } := by
  have hfits := h.writers _ _ hcall
  have hunnamed : call.phase ≠ .renamed := by rw [hphase]; decide
  refine h.goesOn hcall { call with phase := .synced } rfl rfl ?_
    (fun name hname => (h.holds name hname).sync _) fun w c _ hc hfile => ?_
  · refine { hfits with
      hidden := fun _ => hfits.hidden hunnamed
      entry := fun _ => hfits.entry hunnamed
      writing := fun hwriting => by cases hwriting
      done := fun _ => ⟨?_, ?_⟩ }
    · have hwhole := hfits.writing hphase
      rwa [hpieces, List.flatten_nil, List.append_nil] at hwhole
    · simp only [Files.sync, if_pos]
  · refine { h.writers _ _ hc with done := fun hdone => ?_ }
    simp only [Files.sync, if_neg hfile]
    exact (h.writers _ _ hc).done hdone

theorem persists (hcall : s.writers.lookup writer = some call) (hphase : call.phase = .synced) :
    WriteInv files { s with
      files := s.files.rename call.temporary call.path
      writers := s.writers.insert writer { call with phase := .renamed } } := by
  have hfits := h.writers _ _ hcall
  have hunnamed : call.phase ≠ .renamed := by rw [hphase]; decide
  obtain ⟨hcontents, hsynced⟩ := hfits.done (by rw [hphase]; decide)
  have hentry := hfits.entry hunnamed
  refine h.goesOn hcall { call with phase := .renamed } rfl rfl ?_ (fun name hname => ?_) fun w c _ hc hfile => ?_
  · exact
      { hfits with
        hidden := fun hnot => absurd rfl hnot
        entry := fun hnot => absurd rfl hnot
        writing := fun hwriting => by cases hwriting
        done := fun _ => ⟨hcontents, hsynced⟩ }
  · have htemporary : name ≠ call.temporary := by
      rintro rfl
      exact hname hfits.temporary
    refine Files.Holds.refer_other ?_ htemporary none
    by_cases hpath : name = call.path
    · subst hpath
      refine (h.holds _ hname).refer_self fun i hi => ?_
      obtain rfl : call.file = i := Option.some.inj (hentry.symm.trans hi)
      exact ⟨hsynced, .inl (hcontents.symm ▸ hfits.wanted), hfits.old⟩
    · exact (h.holds name hname).refer_other hpath _
  · have hother := h.writers _ _ hc
    have hpath : call.path ≠ c.temporary := fun hsame => hfits.path (hsame ▸ hother.temporary)
    refine WriterFits.refer (hother.refer (fun _ => hpath) fun _ hsame => ?_)
      (fun hnot => hfits.temporary_ne hother hunnamed hnot hfile.symm) fun _ hnone => by cases hnone
    rw [hentry] at hsame
    exact hfile (Option.some.inj hsame).symm

theorem fails (hcall : s.writers.lookup writer = some call) (hphase : call.phase ≠ .renamed) (removed : Bool) :
    WriteInv files (s.fails writer call removed) := by
  have hfits := h.writers _ _ hcall
  unfold OutputDirectory.fails
  cases removed with
  | false => exact h.ends hcall rfl h.holds fun w c hc _ => h.writers _ _ hc
  | true =>
    refine h.ends hcall rfl (fun name hname => (h.holds name hname).refer_other ?_ none) fun w c hc hfile => ?_
    · rintro rfl
      exact hname hfits.temporary
    · have hother := h.writers _ _ hc
      exact hother.refer (fun hnot => hfits.temporary_ne hother hphase hnot hfile.symm) fun _ hnone => by cases hnone

theorem step {step : WriteStep} (hfits : CrashFits s step) (hstep : s.step step = some t) : WriteInv files t := by
  cases step with
  | start writer path temporary pieces => exact h.starts hstep
  | write writer =>
    obtain ⟨call, hcall, hstep⟩ := Option.bind_eq_some_iff.mp hstep
    obtain ⟨hlookup, hphase⟩ := writerAt_eq_some hcall
    cases hpieces : call.pieces with
    | nil =>
      rw [hpieces] at hstep
      cases hstep
    | cons piece pieces =>
      rw [hpieces] at hstep
      cases hstep
      exact h.writes hlookup hphase hpieces
  | sync writer =>
    obtain ⟨call, hcall, hstep⟩ := Option.bind_eq_some_iff.mp hstep
    obtain ⟨hlookup, hphase⟩ := writerAt_eq_some hcall
    cases hpieces : call.pieces with
    | nil =>
      rw [hpieces] at hstep
      cases hstep
      have hsyncs := h.syncs hlookup hphase hpieces
      rwa [hpieces] at hsyncs
    | cons piece pieces =>
      rw [hpieces] at hstep
      cases hstep
  | fail writer removed =>
    obtain ⟨call, hcall, rfl⟩ := Option.map_eq_some_iff.mp hstep
    obtain hcall | ⟨-, hcall⟩ := Option.or_eq_some_iff.mp hcall
    all_goals
      obtain ⟨hlookup, hphase⟩ := writerAt_eq_some hcall
      exact h.fails hlookup (by rw [hphase]; decide) removed
  | persist writer =>
    obtain ⟨call, hcall, rfl⟩ := Option.map_eq_some_iff.mp hstep
    obtain ⟨hlookup, hphase⟩ := writerAt_eq_some hcall
    exact h.persists hlookup hphase
  | syncDirectory writer result =>
    obtain ⟨call, hcall, rfl⟩ := Option.map_eq_some_iff.mp hstep
    obtain ⟨hlookup, -⟩ := writerAt_eq_some hcall
    cases result with
    | ok =>
      refine h.ends hlookup rfl (fun name hname => (h.holds name hname).syncDirectory) fun w c hc _ => ?_
      exact (h.writers _ _ hc).syncDirectory fun name hname => (h.holds name hname).current
    | unsupported => exact h.ends hlookup rfl h.holds fun w c hc _ => h.writers _ _ hc
    | failed => exact h.ends hlookup rfl h.holds fun w c hc _ => h.writers _ _ hc
  | remove path =>
    simp only [OutputDirectory.step] at hstep
    split at hstep
    case isTrue => cases hstep
    case isFalse hpath =>
      cases hstep
      refine ⟨fun name hname => ?_, fun w c hc => ?_, h.alone⟩
      · by_cases hsame : name = path
        · subst hsame
          exact (h.holds _ hname).refer_self fun i hi => by cases hi
        · exact (h.holds name hname).refer_other hsame none
      · have hcall := h.writers _ _ hc
        exact hcall.refer (fun _ hsame => hpath (hsame ▸ hcall.temporary)) fun _ hnone => by cases hnone
  | crash entries lost =>
    cases hstep
    refine ⟨fun name hname => (h.holds name hname).crash (hfits name) lost, fun w c hc => ?_, fun w w' c c' hc => ?_⟩
    · cases hc
    · cases hc

end WriteInv

/-- **Nothing half written is ever at a path**, nor will it be after a crash. -/
theorem atomicWrite_intact (hrest : files.AtRest) {steps : List WriteStep}
    (hguard : Guarded OutputDirectory.step CrashFits ⟨files, ∅, [], []⟩ steps)
    (h : run OutputDirectory.step ⟨files, ∅, [], []⟩ steps = some s) {name : String} (hname : ¬IsTemporary name) :
    s.files.Holds (Offered files s.offered name) name :=
  (run_inv _ (fun _ _ _ hs hfits ht => WriteInv.step hs hfits ht) (writeInv_start hrest) hguard h).holds name hname

/-! ## What stays -/

def Leaves (path : String) (s : OutputDirectory) : WriteStep → Prop
  | .persist writer => ∀ call, s.writerAt writer .synced = some call → call.path ≠ path
  | .remove other => other ≠ path
  | _ => True

structure Kept (files : Files String (List UInt8)) (path : String) (file : ℕ) (contents : List UInt8)
    (s : OutputDirectory) : Prop where
  inv : WriteInv files s
  pinned : s.files.Pinned path file contents
  others : ∀ writer call, s.writers.lookup writer = some call → call.file ≠ file

namespace Kept

variable {path : String} {file : ℕ} {contents : List UInt8} (h : Kept files path file contents s)
  (hpath : ¬IsTemporary path)
include h hpath

theorem old : file < s.files.next := (h.inv.holds path hpath).old _ (h.pinned.entry ▸ h.pinned.current)

theorem temporary_ne (hcall : s.writers.lookup writer = some call) : path ≠ call.temporary := by
  rintro rfl
  exact hpath (h.inv.writers _ _ hcall).temporary

theorem step {step : WriteStep} (hfits : CrashFits s step) (hleaves : Leaves path s step)
    (hstep : s.step step = some t) : Kept files path file contents t := by
  have hinv := h.inv.step hfits hstep
  cases step with
  | start writer other temporary pieces =>
    simp only [OutputDirectory.step, OutputDirectory.starts] at hstep
    split at hstep
    case isFalse => cases hstep
    case isTrue hfree =>
      cases hstep
      -- a temporary file never has a path that a call writes to
      have hne : path ≠ temporary := by
        rintro rfl
        exact hpath hfree.2.2.1
      refine ⟨hinv, h.pinned.create hne (h.old hpath) [], fun w c hc => ?_⟩
      obtain ⟨rfl, rfl⟩ | ⟨-, hold⟩ := Table.lookup_insert_eq_some.mp hc
      · exact (Nat.ne_of_lt (h.old hpath)).symm
      · exact h.others _ _ hold
  | write writer =>
    obtain ⟨call, hcall, hstep⟩ := Option.bind_eq_some_iff.mp hstep
    have hlookup := (writerAt_eq_some hcall).1
    split at hstep
    · cases hstep
    · cases hstep
      refine ⟨hinv, h.pinned.write (h.others _ _ hlookup).symm _, fun w c hc => ?_⟩
      obtain ⟨rfl, rfl⟩ | ⟨-, hold⟩ := Table.lookup_insert_eq_some.mp hc
      · exact h.others _ call hlookup
      · exact h.others _ _ hold
  | sync writer =>
    obtain ⟨call, hcall, hstep⟩ := Option.bind_eq_some_iff.mp hstep
    have hlookup := (writerAt_eq_some hcall).1
    split at hstep
    · cases hstep
      refine ⟨hinv, h.pinned.sync _, fun w c hc => ?_⟩
      obtain ⟨rfl, rfl⟩ | ⟨-, hold⟩ := Table.lookup_insert_eq_some.mp hc
      · exact h.others _ call hlookup
      · exact h.others _ _ hold
    · cases hstep
  | fail writer removed =>
    obtain ⟨call, hcall, rfl⟩ := Option.map_eq_some_iff.mp hstep
    have hlookup : s.writers.lookup writer = some call := by
      obtain hcall | ⟨-, hcall⟩ := Option.or_eq_some_iff.mp hcall
      · exact (writerAt_eq_some hcall).1
      · exact (writerAt_eq_some hcall).1
    refine ⟨hinv, ?_, fun w c hc => h.others w c (Table.lookup_erase_eq_some.mp hc).2⟩
    unfold OutputDirectory.fails
    cases removed with
    | false => exact h.pinned
    | true => exact h.pinned.refer_other (h.temporary_ne hpath hlookup) none
  | persist writer =>
    obtain ⟨call, hcall, rfl⟩ := Option.map_eq_some_iff.mp hstep
    have hlookup := (writerAt_eq_some hcall).1
    refine ⟨hinv, ?_, fun w c hc => ?_⟩
    · exact (h.pinned.refer_other (hleaves call hcall).symm _).refer_other (h.temporary_ne hpath hlookup) none
    · obtain ⟨rfl, rfl⟩ | ⟨-, hold⟩ := Table.lookup_insert_eq_some.mp hc
      · exact h.others _ call hlookup
      · exact h.others _ _ hold
  | syncDirectory writer result =>
    obtain ⟨call, hcall, rfl⟩ := Option.map_eq_some_iff.mp hstep
    cases result with
    | ok =>
      exact ⟨hinv, h.pinned.syncDirectory, fun w c hc => h.others w c (Table.lookup_erase_eq_some.mp hc).2⟩
    | unsupported => exact ⟨hinv, h.pinned, fun w c hc => h.others w c (Table.lookup_erase_eq_some.mp hc).2⟩
    | failed => exact ⟨hinv, h.pinned, fun w c hc => h.others w c (Table.lookup_erase_eq_some.mp hc).2⟩
  | remove other =>
    simp only [OutputDirectory.step] at hstep
    split at hstep
    · cases hstep
    · cases hstep
      exact ⟨hinv, h.pinned.refer_other hleaves.symm none, h.others⟩
  | crash entries lost =>
    cases hstep
    exact ⟨hinv, h.pinned.crash (hfits path) lost, fun w c hc => by cases hc⟩

end Kept

/-- **What a call wrote stays** once the call has returned, until its path is written or removed again. -/
theorem atomicWrite_durable (hrest : files.AtRest) {steps steps' : List WriteStep}
    (hguard : Guarded OutputDirectory.step CrashFits ⟨files, ∅, [], []⟩ steps)
    (h : run OutputDirectory.step ⟨files, ∅, [], []⟩ steps = some s) (hcall : s.writerAt writer .renamed = some call)
    (hvisible : s.files.entries call.path = some call.file) {returned u : OutputDirectory}
    (hreturn : s.step (.syncDirectory writer .ok) = some returned)
    (hguard' : Guarded OutputDirectory.step (fun s step => CrashFits s step ∧ Leaves call.path s step) returned steps')
    (h' : run OutputDirectory.step returned steps' = some u) :
    ∃ file, u.files.entries call.path = some file ∧ u.files.contents file = call.whole := by
  have hinv := run_inv _ (fun _ _ _ hs hfits ht => WriteInv.step hs hfits ht) (writeInv_start hrest) hguard h
  obtain ⟨hlookup, hphase⟩ := writerAt_eq_some hcall
  have hfits := hinv.writers _ _ hlookup
  obtain ⟨hcontents, hsynced⟩ := hfits.done (by rw [hphase]; decide)
  have hreturned : returned = { s.returns writer call .ok with files := s.files.syncDirectory } := by
    simp only [OutputDirectory.step, hcall, Option.map_some, Option.some.injEq] at hreturn
    exact hreturn.symm
  have hcrash : CrashFits s (.syncDirectory writer .ok) := trivial
  have hkept : Kept files call.path call.file call.whole returned := by
    refine ⟨hinv.step hcrash hreturn, ?_, fun w c hc => ?_⟩
    · rw [hreturned, ← hcontents]
      exact pinned_syncDirectory hvisible hsynced
    · rw [hreturned] at hc
      obtain ⟨hne, hold⟩ := Table.lookup_erase_eq_some.mp hc
      exact fun hsame => hne (hinv.alone _ _ _ _ hold hlookup hsame)
  have hlast := run_inv _ (fun _ _ _ hs hok ht => Kept.step hs hfits.path hok.1 hok.2 ht) hkept hguard' h'
  exact ⟨call.file, hlast.pinned.entry, hlast.pinned.contents⟩

/-! ## The abstract disk -/

def Shows (session : String) (started : ℕ → ℤ) (disk : Disk) (s : OutputDirectory) : Prop :=
  ∀ file : SessionFile, file ∈ disk ↔ s.files.entries (file.fileName session started) ≠ none

theorem not_temporary (session : String) (started : ℕ → ℤ) (file : SessionFile) :
    ¬IsTemporary (file.fileName session started) := by
  obtain ⟨kind, window⟩ := file
  have hends := congrArg Prod.fst (FileKind.ends_fileName kind (basename session window (started window)))
  rintro ⟨rest, hrest⟩
  have hdot : (FileKind.ends (FileKind.fileName kind (basename session window (started window))).toList).1 =
      some '.' := by
    change (FileKind.fileName kind (basename session window (started window))).toList.head? = some '.'
    exact congrArg List.head? hrest.symm
  rw [hdot] at hends
  cases kind with
  | firefox format => cases format <;> exact absurd hends (by decide)
  | _ => exact absurd hends (by decide)

def OfCall (writer : ℕ) : WriteStep → Prop
  | .write other => other = writer
  | .sync other => other = writer
  | .fail other _ => other = writer
  | .persist other => other = writer
  | .syncDirectory other _ => other = writer
  | _ => False

section
variable {session : String} {started : ℕ → ℤ} {file : SessionFile} {disk : Disk}

theorem Shows.refer_temporary (h : Shows session started disk s) {temporary : String}
    (htemporary : IsTemporary temporary) {entry : Option ℕ}
    (hfiles : t.files.entries = (s.files.refer temporary entry).entries) : Shows session started disk t := by
  intro other
  have hne : other.fileName session started ≠ temporary := by
    rintro rfl
    exact not_temporary session started other htemporary
  rw [hfiles, h other]
  simp only [Files.refer, if_neg hne]

theorem Shows.refer_path (hstarted : ∀ index, 0 ≤ started index) (h : Shows session started disk s) {entry : Option ℕ}
    (hentry : entry ≠ none)
    (hfiles : t.files.entries = (s.files.refer (file.fileName session started) entry).entries) :
    Shows session started (insert file disk) t := by
  intro other
  rw [hfiles, Finset.mem_insert]
  by_cases hsame : other = file
  · subst hsame
    simpa [Files.refer] using hentry
  · have hne : other.fileName session started ≠ file.fileName session started :=
      fun hname => hsame (SessionFile.injective_fileName session hstarted hname)
    simp only [Files.refer, if_neg hne, hsame, false_or]
    exact h other

inductive Progress (session : String) (started : ℕ → ℤ) (writer : ℕ) (file : SessionFile) (disk : Disk)
    (before : List (Writer × WriteOutcome)) (s : OutputDirectory) : Prop where
  | hidden {call : Writer} (lookup : s.writers.lookup writer = some call) (phase : call.phase ≠ .renamed)
      (path : call.path = file.fileName session started) (returned : s.returned = before)
      (shows : Shows session started disk s)
  | visible {call : Writer} (lookup : s.writers.lookup writer = some call) (phase : call.phase = .renamed)
      (returned : s.returned = before) (shows : Shows session started (insert file disk) s)
  | returned (call : Writer) (outcome : WriteOutcome) (lookup : s.writers.lookup writer = none)
      (returned : s.returned = before ++ [(call, outcome)])
      (shows : ∀ faults : Faults, faults.write file = outcome →
        Shows session started (RustProfile.atomicWrite faults disk file).2 s)

section
variable {before : List (Writer × WriteOutcome)} (h : Progress session started writer file disk before s)
include h

theorem Progress.of_hidden (hlookup : s.writers.lookup writer = some call) (hphase : call.phase ≠ .renamed) :
    call.path = file.fileName session started ∧ s.returned = before ∧ Shows session started disk s := by
  cases h with
  | hidden lookup phase path returned shows =>
    cases lookup.symm.trans hlookup
    exact ⟨path, returned, shows⟩
  | visible lookup phase returned shows =>
    cases lookup.symm.trans hlookup
    exact absurd phase hphase
  | returned _ _ lookup returned shows => cases lookup.symm.trans hlookup

theorem Progress.of_visible (hlookup : s.writers.lookup writer = some call) (hphase : call.phase = .renamed) :
    s.returned = before ∧ Shows session started (insert file disk) s := by
  cases h with
  | hidden lookup phase path returned shows =>
    cases lookup.symm.trans hlookup
    exact absurd hphase phase
  | visible lookup phase returned shows =>
    cases lookup.symm.trans hlookup
    exact ⟨returned, shows⟩
  | returned _ _ lookup returned shows => cases lookup.symm.trans hlookup

/-- A call returns with its file at its path. -/
theorem Progress.published (hlookup : s.writers.lookup writer = some call) (hphase : call.phase = .renamed)
    (outcome : WriteOutcome) (houtcome : outcome ≠ .unpublished) (hentries : t.files.entries = s.files.entries)
    (hwriters : t.writers = s.writers.erase writer) (hreturned : t.returned = s.returned ++ [(call, outcome)]) :
    Progress session started writer file disk before t := by
  obtain ⟨hbefore, hshows⟩ := h.of_visible hlookup hphase
  refine .returned call outcome ?_ (hbefore ▸ hreturned) fun faults hfaults => ?_
  · rw [hwriters]
    exact AList.lookup_erase _ _
  · have hdisk : (RustProfile.atomicWrite faults disk file).2 = insert file disk := by
      unfold RustProfile.atomicWrite
      rw [hfaults]
      cases outcome with
      | ok => rfl
      | unpublished => exact absurd rfl houtcome
      | unsynced => rfl
    rw [hdisk]
    intro other
    rw [hentries]
    exact hshows other

theorem Progress.step (hstarted : ∀ index, 0 ≤ started index) (hinv : WriteInv files s) {step : WriteStep}
    (hstep : OfCall writer step) (ht : s.step step = some t) : Progress session started writer file disk before t := by
  cases step with
  | start => cases hstep
  | remove => cases hstep
  | crash => cases hstep
  | write =>
    cases hstep
    obtain ⟨call, hcall, ht⟩ := Option.bind_eq_some_iff.mp ht
    obtain ⟨hlookup, hphase⟩ := writerAt_eq_some hcall
    obtain ⟨hpath, hbefore, hshows⟩ := h.of_hidden hlookup (by rw [hphase]; decide)
    split at ht
    · cases ht
    · cases ht
      exact .hidden (AList.lookup_insert _) (by rw [hphase]; decide) hpath hbefore hshows
  | sync =>
    cases hstep
    obtain ⟨call, hcall, ht⟩ := Option.bind_eq_some_iff.mp ht
    obtain ⟨hlookup, hphase⟩ := writerAt_eq_some hcall
    obtain ⟨hpath, hbefore, hshows⟩ := h.of_hidden hlookup (by rw [hphase]; decide)
    split at ht
    · cases ht
      exact .hidden (AList.lookup_insert _) (fun hnot => by cases hnot) hpath hbefore hshows
    · cases ht
  | fail _ removed =>
    cases hstep
    obtain ⟨call, hcall, rfl⟩ := Option.map_eq_some_iff.mp ht
    obtain ⟨hlookup, hphase⟩ : s.writers.lookup writer = some call ∧ call.phase ≠ .renamed := by
      obtain hcall | ⟨-, hcall⟩ := Option.or_eq_some_iff.mp hcall
      all_goals
        obtain ⟨hlookup, hphase⟩ := writerAt_eq_some hcall
        exact ⟨hlookup, by rw [hphase]; decide⟩
    obtain ⟨-, hbefore, hshows⟩ := h.of_hidden hlookup hphase
    refine .returned call .unpublished (AList.lookup_erase _ _) (hbefore ▸ rfl) fun faults hfaults => ?_
    have hdisk : (RustProfile.atomicWrite faults disk file).2 = disk := by
      unfold RustProfile.atomicWrite
      rw [hfaults]
    rw [hdisk]
    unfold OutputDirectory.fails
    cases removed with
    | false => exact hshows
    | true => exact hshows.refer_temporary (hinv.writers _ _ hlookup).temporary rfl
  | persist =>
    cases hstep
    obtain ⟨call, hcall, rfl⟩ := Option.map_eq_some_iff.mp ht
    obtain ⟨hlookup, hphase⟩ := writerAt_eq_some hcall
    have hhidden : call.phase ≠ .renamed := by rw [hphase]; decide
    obtain ⟨hpath, hbefore, hshows⟩ := h.of_hidden hlookup hhidden
    have hfits := hinv.writers _ _ hlookup
    refine .visible (AList.lookup_insert _) rfl hbefore ?_
    have hentry : s.files.entries call.temporary ≠ none := by
      rw [hfits.entry hhidden]
      exact Option.some_ne_none _
    have hpublished : Shows session started (insert file disk)
        { s with files := s.files.refer call.path (s.files.entries call.temporary) } :=
      hshows.refer_path hstarted hentry (by rw [hpath])
    exact hpublished.refer_temporary hfits.temporary rfl
  | syncDirectory _ result =>
    cases hstep
    obtain ⟨call, hcall, rfl⟩ := Option.map_eq_some_iff.mp ht
    obtain ⟨hlookup, hphase⟩ := writerAt_eq_some hcall
    cases result with
    | ok => exact h.published hlookup hphase .ok (by decide) rfl rfl rfl
    | unsupported => exact h.published hlookup hphase .ok (by decide) rfl rfl rfl
    | failed => exact h.published hlookup hphase .unsynced (by decide) rfl rfl rfl

end

/-- **The calls do what the abstract disk does.** -/
theorem atomicWrite_refines (hstarted : ∀ index, 0 ≤ started index) (hrest : files.AtRest) {steps : List WriteStep}
    (hguard : Guarded OutputDirectory.step CrashFits ⟨files, ∅, [], []⟩ steps)
    (h : run OutputDirectory.step ⟨files, ∅, [], []⟩ steps = some s) (hshows : Shows session started disk s)
    {temporary : String} {pieces : List (List UInt8)} {ofCall : List WriteStep}
    (hofCall : ∀ step ∈ ofCall, OfCall writer step)
    (h' : run OutputDirectory.step s (.start writer (file.fileName session started) temporary pieces :: ofCall) =
      some t)
    {outcome : WriteOutcome} (hreturned : t.returned = s.returned ++ [(call, outcome)]) {faults : Faults}
    (hfaults : faults.write file = outcome) :
    Shows session started (RustProfile.atomicWrite faults disk file).2 t := by
  have hinv := run_inv _ (fun _ _ _ hs hfits ht => WriteInv.step hs hfits ht) (writeInv_start hrest) hguard h
  rw [run_cons] at h'
  obtain ⟨begun, hstart, hrest'⟩ := Option.bind_eq_some_iff.mp h'
  have hbegun : WriteInv files begun ∧ Progress session started writer file disk s.returned begun := by
    refine ⟨hinv.starts hstart, ?_⟩
    simp only [OutputDirectory.step, OutputDirectory.starts] at hstart
    split at hstart
    case isFalse => cases hstart
    case isTrue hfree =>
      cases hstart
      exact .hidden (AList.lookup_insert _) (fun hnot => by cases hnot) rfl rfl (hshows.refer_temporary hfree.2.2.1 rfl)
  have hend : WriteInv files t ∧ Progress session started writer file disk s.returned t := by
    have hguard' : Guarded OutputDirectory.step (fun _ step => OfCall writer step) begun ofCall :=
      guarded_of_forall _ fun step hmem _ => hofCall step hmem
    refine @run_inv _ _ OutputDirectory.step (fun _ step => OfCall writer step)
      (fun u => WriteInv files u ∧ Progress session started writer file disk s.returned u)
      (fun u step v hu hstep hv => ?_) _ _ _ hbegun hguard' hrest'
    have hcrash : CrashFits u step := by
      cases step with
      | crash => cases hstep
      | _ => trivial
    exact ⟨hu.1.step hcrash hv, hu.2.step hstarted hu.1 hstep hv⟩
  cases hend.2 with
  | hidden lookup phase path returned shows =>
    rw [returned] at hreturned
    exact absurd (List.self_eq_append_right.mp hreturned) (List.cons_ne_nil _ _)
  | visible lookup phase returned shows =>
    rw [returned] at hreturned
    exact absurd (List.self_eq_append_right.mp hreturned) (List.cons_ne_nil _ _)
  | returned _ _ lookup returned shows =>
    rw [returned] at hreturned
    have hsame := List.append_cancel_left hreturned
    cases hsame
    exact shows faults hfaults

end

end

/-! The CPU profile of a session's first window, written in two pieces. -/

def emptyDirectory : Files String (List UInt8) where
  entries := fun _ => none
  contents := fun _ => []
  synced := fun _ => true
  since := fun _ => [none]
  next := 0

theorem emptyDirectory_atRest : emptyDirectory.AtRest :=
  ⟨fun _ => rfl, fun _ => rfl, fun _ _ h => by cases h⟩

def firstProfile : SessionFile := ⟨.cpu, 0⟩

def firstPath : String := firstProfile.fileName "a" fun _ => 1

def untilPersisted : List WriteStep :=
  [.start 0 firstPath ".tmpx" [[1], [2]], .write 0, .write 0, .sync 0, .persist 0]

theorem guarded_untilPersisted (s : OutputDirectory) : Guarded OutputDirectory.step CrashFits s untilPersisted := by
  refine guarded_of_forall _ fun step hmem _ => ?_
  simp only [untilPersisted, List.mem_cons, List.not_mem_nil, or_false] at hmem
  obtain rfl | rfl | rfl | rfl | rfl := hmem <;> trivial

theorem atomicWrite_intact_renamed : ∃ s,
    run OutputDirectory.step ⟨emptyDirectory, ∅, [], []⟩ untilPersisted = some s ∧
      s.files.since firstPath = [some 0, none] ∧
      s.files.Holds (Offered emptyDirectory s.offered firstPath) firstPath := by
  have hsince : (run OutputDirectory.step ⟨emptyDirectory, ∅, [], []⟩ untilPersisted).map
      (fun s => s.files.since firstPath) = some [some 0, none] := by decide +kernel
  obtain ⟨s, hrun, hs⟩ := Option.map_eq_some_iff.mp hsince
  exact ⟨s, hrun, hs, atomicWrite_intact emptyDirectory_atRest (guarded_untilPersisted _) hrun
    (not_temporary "a" (fun _ => 1) firstProfile)⟩

theorem atomicWrite_durable_crash : ∃ s returned u,
    run OutputDirectory.step ⟨emptyDirectory, ∅, [], []⟩ untilPersisted = some s ∧
      s.step (.syncDirectory 0 .ok) = some returned ∧
      returned.step (.crash returned.files.entries fun _ => []) = some u ∧
      ∃ file, u.files.entries firstPath = some file ∧ u.files.contents file = [1, 2] := by
  have hvisible : (run OutputDirectory.step ⟨emptyDirectory, ∅, [], []⟩ untilPersisted).map
      (fun s => (s.writerAt 0 .renamed, s.files.entries firstPath)) =
        some (some ⟨firstPath, ".tmpx", 0, [], .renamed, [1, 2]⟩, some 0) := by decide +kernel
  obtain ⟨s, hrun, hs⟩ := Option.map_eq_some_iff.mp hvisible
  obtain ⟨hcall, hentry⟩ := Prod.mk.inj hs
  have hreturn : s.step (.syncDirectory 0 .ok) = some
      { s.returns 0 ⟨firstPath, ".tmpx", 0, [], .renamed, [1, 2]⟩ .ok with files := s.files.syncDirectory } := by
    simp only [OutputDirectory.step, hcall, Option.map_some]
  have hguard : Guarded OutputDirectory.step (fun s step => CrashFits s step ∧ Leaves firstPath s step)
      { s.returns 0 ⟨firstPath, ".tmpx", 0, [], .renamed, [1, 2]⟩ .ok with files := s.files.syncDirectory }
      [.crash s.files.entries fun _ => []] :=
    ⟨⟨fun _ => List.mem_singleton_self _, trivial⟩, fun _ _ => trivial⟩
  exact ⟨s, _, _, hrun, hreturn, rfl,
    atomicWrite_durable emptyDirectory_atRest (guarded_untilPersisted _) hrun hcall hentry hreturn hguard rfl⟩

def afterStart : List WriteStep :=
  [.write 0, .write 0, .sync 0, .persist 0, .syncDirectory 0 .unsupported]

theorem atomicWrite_refines_firstProfile : ∃ t,
    run OutputDirectory.step ⟨emptyDirectory, ∅, [], []⟩ (.start 0 firstPath ".tmpx" [[1], [2]] :: afterStart) =
      some t ∧ Shows "a" (fun _ => 1) (RustProfile.atomicWrite Faults.none ∅ firstProfile).2 t := by
  have hreturned : (run OutputDirectory.step ⟨emptyDirectory, ∅, [], []⟩
      (.start 0 firstPath ".tmpx" [[1], [2]] :: afterStart)).map (·.returned) =
        some [(⟨firstPath, ".tmpx", 0, [], .renamed, [1, 2]⟩, .ok)] := by decide +kernel
  have hofCall : ∀ step ∈ afterStart, OfCall 0 step := by
    intro step hmem
    simp only [afterStart, List.mem_cons, List.not_mem_nil, or_false] at hmem
    obtain rfl | rfl | rfl | rfl | rfl := hmem <;> rfl
  have hguard : Guarded OutputDirectory.step CrashFits ⟨emptyDirectory, ∅, [], []⟩ [] := trivial
  have hshows : Shows "a" (fun _ => 1) ∅ ⟨emptyDirectory, ∅, [], []⟩ := fun file => by simp [emptyDirectory]
  obtain ⟨t, hrun, ht⟩ := Option.map_eq_some_iff.mp hreturned
  exact ⟨t, hrun, atomicWrite_refines (fun _ => by decide) emptyDirectory_atRest hguard rfl hshows hofCall hrun ht rfl⟩

end AtomicWrite

end RustProfile
