import Mathlib.Data.Finset.Basic
import Mathlib.Tactic.FinCases

/-!
# Window outputs

The output worker writes the files of a window one after another, lists them in
`retained` and removes the oldest windows beyond `keep_windows`; when any of that
fails it removes the window's own files again. What the file system answers is a
`Faults`.
-/

namespace RustProfile

inductive FirefoxProfileFormat where
  | json
  | jslb
  deriving DecidableEq, Repr

inductive FileKind where
  | cpu
  | cpuSvg
  | heap
  | heapSvg
  | offCpu
  | offCpuSvg
  | firefox (format : FirefoxProfileFormat)
  | diagnostics
  deriving DecidableEq, Repr

/-- The path of an output file of the session: what it holds and its window's index. -/
structure SessionFile where
  kind : FileKind
  window : ℕ
  deriving DecidableEq, Repr

abbrev Disk := Finset SessionFile

/-- A profile's file and its flame graph's. -/
abbrev ProfileOutput := SessionFile × Option SessionFile

def profileFiles : Option ProfileOutput → List SessionFile
  | some (path, svg) => path :: svg.toList
  | none => []

structure OutputArgs where
  cpu : Bool := true
  heap : Bool := false
  offCpu : Bool := false
  svg : Bool := false
  firefoxProfile : Option FirefoxProfileFormat := none
  otlp : Bool := false
  otlpTimeline : Bool := false
  deriving DecidableEq, Repr

structure WindowOutput where
  cpu : Option ProfileOutput
  heap : Option ProfileOutput
  offCpu : Option ProfileOutput
  firefox : Option SessionFile
  otlpEnabled : Bool
  otlpTimeline : Bool
  diagnosticsPath : SessionFile
  outputs : List SessionFile
  exportOtlp : Bool
  deriving Repr

/-- One fallible part of writing a window. -/
inductive Publication where
  | file (path : SessionFile)
  | timeline
  deriving DecidableEq, Repr

def Publication.path : Publication → Option SessionFile
  | .file path => some path
  | .timeline => none

namespace WindowOutput

def new (args : OutputArgs) (index : ℕ) : WindowOutput :=
  let path (kind : FileKind) : SessionFile := { kind := kind, window := index }
  let profile (wanted : Bool) (kind svg : FileKind) : Option ProfileOutput :=
    if wanted then some (path kind, if args.svg then some (path svg) else none) else none
  let cpu := profile args.cpu .cpu .cpuSvg
  let heap := profile args.heap .heap .heapSvg
  let offCpu := profile args.offCpu .offCpu .offCpuSvg
  let firefox := args.firefoxProfile.map fun format => path (.firefox format)
  { cpu := cpu
    heap := heap
    offCpu := offCpu
    firefox := firefox
    otlpEnabled := args.otlp
    otlpTimeline := args.otlpTimeline
    diagnosticsPath := path .diagnostics
    outputs := profileFiles cpu ++ profileFiles heap ++ profileFiles offCpu ++ firefox.toList ++ [path .diagnostics]
    exportOtlp := true }

def shedDerivedOutputs (self : WindowOutput) : WindowOutput :=
  let svg (output : Option ProfileOutput) : List SessionFile := output.elim [] fun output => output.2.toList
  let removed := svg self.cpu ++ svg self.heap ++ svg self.offCpu ++ self.firefox.toList
  let shedOtlp := self.exportOtlp && self.otlpEnabled
  let bare (output : Option ProfileOutput) : Option ProfileOutput := output.map fun output => (output.1, none)
  { self with
    cpu := bare self.cpu
    heap := bare self.heap
    offCpu := bare self.offCpu
    firefox := none
    exportOtlp := self.exportOtlp && !shedOtlp
    outputs := if removed ≠ [] ∨ shedOtlp then self.outputs.filter (· ∉ removed) else self.outputs }

/-- The window that `OutputWriter::submit` sends while `pending` windows are still being written. -/
def submit (args : OutputArgs) (index pending : ℕ) : WindowOutput :=
  if pending ≠ 0 then (new args index).shedDerivedOutputs else new args index

/-- What `write_inner` does in turn before it retains the window. -/
def publications (self : WindowOutput) : List Publication :=
  (profileFiles self.cpu ++ profileFiles self.heap ++ profileFiles self.offCpu).map .file ++
    (if self.otlpEnabled && self.exportOtlp && self.otlpTimeline then [.timeline] else []) ++
    (self.firefox.toList ++ [self.diagnosticsPath]).map .file

end WindowOutput

/-! ## The file system -/

inductive WriteOutcome where
  | ok
  | unpublished
  | unsynced
  deriving DecidableEq, Repr

structure Faults where
  write : SessionFile → WriteOutcome
  timeline : Bool
  remove : SessionFile → Bool
  rollback : SessionFile → Bool

def Faults.none : Faults := ⟨fun _ => .ok, false, fun _ => false, fun _ => false⟩

inductive WriteError where
  | publish (path : SessionFile)
  | syncDirectory
  | timeline
  | removeExpired (path : SessionFile)
  deriving DecidableEq, Repr

structure ExportJob where
  diagnosticsPath : SessionFile
  deriving DecidableEq, Repr

/-- The files of the session on disk, and the outputs of the windows to keep. -/
structure OutputSession where
  disk : Disk
  retained : List (List SessionFile)
  deriving DecidableEq

section
variable (faults : Faults)

def atomicWrite (disk : Disk) (path : SessionFile) : Except WriteError Unit × Disk :=
  match faults.write path with
  | .ok => (.ok (), insert path disk)
  | .unpublished => (.error (.publish path), disk)
  | .unsynced => (.error .syncDirectory, insert path disk)

def publishAll : List Publication → Disk → Except WriteError Unit × Disk
  | [], disk => (.ok (), disk)
  | .file path :: rest, disk =>
    match atomicWrite faults disk path with
    | (.ok _, disk) => publishAll rest disk
    | (.error error, disk) => (.error error, disk)
  | .timeline :: rest, disk => if faults.timeline then (.error .timeline, disk) else publishAll rest disk

def removeExpired : List SessionFile → Disk → Except WriteError Unit × Disk
  | [], disk => (.ok (), disk)
  | path :: rest, disk =>
    if faults.remove path then (.error (.removeExpired path), disk) else removeExpired rest (disk.erase path)

def pruneSessionWindows (keepWindows : ℕ) : List (List SessionFile) → Disk → Except WriteError Unit × OutputSession
  | [], disk => (.ok (), ⟨disk, []⟩)
  | outputs :: retained, disk =>
    if (outputs :: retained).length > keepWindows then
      match removeExpired faults outputs disk with
      | (.ok _, disk) => pruneSessionWindows keepWindows retained disk
      | (.error error, disk) => (.error error, ⟨disk, retained⟩)
    else (.ok (), ⟨disk, outputs :: retained⟩)

def rollbackIncompleteWindow (outputs : List SessionFile) (disk : Disk) : Disk :=
  outputs.foldl (fun disk path => if faults.rollback path then disk else disk.erase path) disk

variable (keepWindows : ℕ) (encodes : Bool)

/-- `encodes`: whether the window's profiles can be encoded for export. -/
def WindowOutput.job (self : WindowOutput) : Option ExportJob :=
  if self.otlpEnabled && self.exportOtlp && encodes then some ⟨self.diagnosticsPath⟩ else none

def WindowOutput.writeInner (self : WindowOutput) (session : OutputSession) :
    Except WriteError (Option ExportJob) × OutputSession :=
  match publishAll faults self.publications session.disk with
  | (.error error, disk) => (.error error, { session with disk := disk })
  | (.ok _, disk) =>
    match pruneSessionWindows faults keepWindows (session.retained ++ [self.outputs]) disk with
    | (.error error, session) => (.error error, session)
    | (.ok _, session) => (.ok (self.job encodes), session)

def WindowOutput.write (self : WindowOutput) (session : OutputSession) :
    Except WriteError (Option ExportJob) × OutputSession :=
  match self.writeInner faults keepWindows encodes session with
  | (.error error, session) =>
    (.error error, { session with disk := rollbackIncompleteWindow faults self.outputs session.disk })
  | written => written

end

/-! ## What a window lists -/

def published (publications : List Publication) : List SessionFile := publications.filterMap Publication.path

namespace WindowOutput

/-- The files that writing the window publishes. -/
def files (self : WindowOutput) : List SessionFile :=
  profileFiles self.cpu ++ profileFiles self.heap ++ profileFiles self.offCpu ++ self.firefox.toList ++
    [self.diagnosticsPath]

theorem published_publications (self : WindowOutput) : published self.publications = self.files := by
  have hfile : ∀ l : List SessionFile, published (l.map .file) = l := fun l => by
    unfold published
    rw [List.filterMap_map]
    exact List.filterMap_some
  have htimeline : ∀ c : Bool, published (if c then [.timeline] else []) = [] := fun c => by cases c <;> rfl
  have happend : ∀ l l', published (l ++ l') = published l ++ published l' := fun l l' => List.filterMap_append
  unfold publications files
  rw [happend, happend, hfile, htimeline, hfile, List.append_nil]
  simp only [List.append_assoc]

theorem profileFiles_sublist (wanted svg : Bool) (profile graph : SessionFile) :
    (profileFiles (if wanted then some (profile, if svg then some graph else none) else none)).Sublist
      [profile, graph] := by
  cases wanted
  · exact List.nil_sublist _
  · cases svg
    · exact (List.nil_sublist _).cons_cons _
    · exact List.Sublist.refl _

/-- No kind of file occurs twice in a window. -/
theorem new_files_sublist (args : OutputArgs) (index : ℕ) : ∃ kinds : List FileKind, kinds.Nodup ∧
    (new args index).files.Sublist (kinds.map fun kind => { kind := kind, window := index }) := by
  refine ⟨([.cpu, .cpuSvg, .heap, .heapSvg, .offCpu, .offCpuSvg] : List FileKind) ++
    (args.firefoxProfile.map FileKind.firefox).toList ++ [FileKind.diagnostics], ?_, ?_⟩
  · cases args.firefoxProfile with
    | none => decide
    | some format => simp
  · have hprofiles := ((profileFiles_sublist args.cpu args.svg ⟨.cpu, index⟩ ⟨.cpuSvg, index⟩).append
      (profileFiles_sublist args.heap args.svg ⟨.heap, index⟩ ⟨.heapSvg, index⟩)).append
      (profileFiles_sublist args.offCpu args.svg ⟨.offCpu, index⟩ ⟨.offCpuSvg, index⟩)
    have hfirefox : (args.firefoxProfile.map fun format => (⟨.firefox format, index⟩ : SessionFile)).toList =
        (args.firefoxProfile.map FileKind.firefox).toList.map fun kind => ⟨kind, index⟩ := by
      cases args.firefoxProfile with
      | none => rfl
      | some format => rfl
    rw [List.map_append, List.map_append, ← hfirefox]
    exact (hprofiles.append (List.Sublist.refl _)).append (List.Sublist.refl _)

theorem new_listed (args : OutputArgs) (index : ℕ) :
    (new args index).outputs = (new args index).files ∧ (∀ p ∈ (new args index).files, p.window = index) ∧
      (new args index).files.Nodup := by
  obtain ⟨kinds, hkinds, hsub⟩ := new_files_sublist args index
  refine ⟨rfl, fun p hp => ?_, (hkinds.map fun _ _ h => congrArg SessionFile.kind h).sublist hsub⟩
  obtain ⟨kind, -, rfl⟩ := List.mem_map.mp (hsub.subset hp)
  rfl

/-- The files that a shed takes from the outputs. -/
def derivedFiles (self : WindowOutput) : List SessionFile :=
  let svg (output : Option ProfileOutput) : List SessionFile := output.elim [] fun output => output.2.toList
  svg self.cpu ++ svg self.heap ++ svg self.offCpu ++ self.firefox.toList

/-- A shed lists what is left of the outputs, whether or not it removes any. -/
theorem outputs_shedDerivedOutputs (self : WindowOutput) :
    self.shedDerivedOutputs.outputs = self.outputs.filter fun p => p ∉ self.derivedFiles := by
  unfold shedDerivedOutputs
  dsimp only
  split
  next => rfl
  next h =>
    have hnone : self.derivedFiles = [] := by
      by_contra hne
      exact h (Or.inl hne)
    rw [hnone]
    simp

theorem mem_derivedFiles {self : WindowOutput} {p : SessionFile} : p ∈ self.derivedFiles ↔
    (∃ o ∈ self.cpu, p ∈ o.2) ∨ (∃ o ∈ self.heap, p ∈ o.2) ∨ (∃ o ∈ self.offCpu, p ∈ o.2) ∨ p ∈ self.firefox := by
  have hsvg : ∀ output : Option ProfileOutput,
      (p ∈ output.elim [] fun output => output.2.toList) ↔ ∃ o ∈ output, p ∈ o.2 := by
    intro output
    cases output <;> simp
  unfold derivedFiles
  simp only [List.mem_append, hsvg, Option.mem_toList, or_assoc]
  exact Iff.rfl

/-- Without the files removed a profile has its own. -/
theorem profileFiles_filter {removed : List SessionFile} {output : Option ProfileOutput}
    (hprofile : ∀ o ∈ output, o.1 ∉ removed) (hgraph : ∀ p, (∃ o ∈ output, p ∈ o.2) → p ∈ removed) :
    (profileFiles output).filter (fun p => p ∉ removed) =
      profileFiles (output.map fun output => (output.1, none)) := by
  cases output with
  | none => rfl
  | some output =>
    have hkept := hprofile output rfl
    have hgone : output.2.toList.filter (fun p => p ∉ removed) = [] :=
      List.filter_eq_nil_iff.mpr fun p hp => by simpa using hgraph p ⟨output, rfl, Option.mem_toList.mp hp⟩
    unfold profileFiles
    rw [List.filter_cons_of_pos (by simpa using hkept), hgone]
    rfl

/-- The kinds of a profile that is wanted. -/
theorem kinds_of_mem {wanted svg : Bool} {profile graph : SessionFile} {o : ProfileOutput}
    (h : o ∈ (if wanted then some (profile, if svg then some graph else none) else none)) :
    o.1 = profile ∧ ∀ p ∈ o.2, p = graph := by
  cases wanted with
  | false => cases h
  | true =>
    obtain rfl := Option.some.inj h
    refine ⟨rfl, fun p hp => ?_⟩
    cases svg with
    | false => cases hp
    | true => exact (Option.some.inj hp).symm

/-- Only flame graphs and the Firefox profile are derived. -/
theorem kind_of_derived {args : OutputArgs} {index : ℕ} {p : SessionFile} (h : p ∈ (new args index).derivedFiles) :
    p.kind ≠ .cpu ∧ p.kind ≠ .heap ∧ p.kind ≠ .offCpu ∧ p.kind ≠ .diagnostics := by
  rcases mem_derivedFiles.mp h with ⟨o, ho, hp⟩ | ⟨o, ho, hp⟩ | ⟨o, ho, hp⟩ | hfirefox
  · rw [(kinds_of_mem ho).2 p hp]
    exact ⟨nofun, nofun, nofun, nofun⟩
  · rw [(kinds_of_mem ho).2 p hp]
    exact ⟨nofun, nofun, nofun, nofun⟩
  · rw [(kinds_of_mem ho).2 p hp]
    exact ⟨nofun, nofun, nofun, nofun⟩
  · obtain ⟨format, -, rfl⟩ := Option.map_eq_some_iff.mp hfirefox
    exact ⟨nofun, nofun, nofun, nofun⟩

theorem shed_listed (args : OutputArgs) (index : ℕ) :
    (new args index).shedDerivedOutputs.outputs = (new args index).shedDerivedOutputs.files ∧
      (new args index).shedDerivedOutputs.files.Sublist (new args index).files := by
  have hcpu : ∀ o ∈ (new args index).cpu, o.1 ∉ (new args index).derivedFiles := fun o ho h =>
    (kind_of_derived h).1 (congrArg SessionFile.kind (kinds_of_mem ho).1)
  have hheap : ∀ o ∈ (new args index).heap, o.1 ∉ (new args index).derivedFiles := fun o ho h =>
    (kind_of_derived h).2.1 (congrArg SessionFile.kind (kinds_of_mem ho).1)
  have hoffCpu : ∀ o ∈ (new args index).offCpu, o.1 ∉ (new args index).derivedFiles := fun o ho h =>
    (kind_of_derived h).2.2.1 (congrArg SessionFile.kind (kinds_of_mem ho).1)
  have hdiagnostics : (new args index).diagnosticsPath ∉ (new args index).derivedFiles := fun h =>
    (kind_of_derived h).2.2.2 rfl
  have hfirefox : (new args index).firefox.toList.filter (fun p => p ∉ (new args index).derivedFiles) = [] := by
    refine List.filter_eq_nil_iff.mpr fun p hp => ?_
    simpa using mem_derivedFiles.mpr (.inr (.inr (.inr (Option.mem_toList.mp hp))))
  have hfiles : (new args index).files.filter (fun p => p ∉ (new args index).derivedFiles) =
      (new args index).shedDerivedOutputs.files := by
    unfold files
    rw [List.filter_append, List.filter_append, List.filter_append, List.filter_append, hfirefox,
      profileFiles_filter hcpu fun p hp => mem_derivedFiles.mpr (.inl hp),
      profileFiles_filter hheap fun p hp => mem_derivedFiles.mpr (.inr (.inl hp)),
      profileFiles_filter hoffCpu fun p hp => mem_derivedFiles.mpr (.inr (.inr (.inl hp))),
      List.filter_cons_of_pos (by simpa using hdiagnostics)]
    rfl
  exact ⟨(outputs_shedDerivedOutputs _).trans hfiles, hfiles ▸ List.filter_sublist⟩

/-- The window lists the files it publishes, which are its own. -/
structure Listed (index : ℕ) (output : WindowOutput) : Prop where
  outputs : output.outputs = output.files
  window : ∀ p ∈ output.files, p.window = index
  nodup : output.files.Nodup

theorem submit_listed (args : OutputArgs) (index pending : ℕ) : Listed index (submit args index pending) := by
  obtain ⟨hout, hwin, hnd⟩ := new_listed args index
  obtain ⟨hshed, hsub⟩ := shed_listed args index
  unfold submit
  split
  · exact ⟨hshed, fun p hp => hwin p (hsub.subset hp), hnd.sublist hsub⟩
  · exact ⟨hout, hwin, hnd⟩

theorem diagnosticsPath_mem (self : WindowOutput) : self.diagnosticsPath ∈ self.files := by simp [files]

end WindowOutput

end RustProfile
