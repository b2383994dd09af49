import RustProfile.Lib.Outbox
import RustProfile.OtlpExporter
import RustProfile.OutputFlight
import RustProfile.RecordSound

/-!
# No export is left pending

A diagnostics file is published with a pending export only together with a job,
and a job that was handed over is settled by whoever holds it: the file is then
written again with what became of the export. Once the exporter has exited, no
job is left.
-/

namespace RustProfile

namespace Record

open Channels Outboxes Run

/-! ## Fates -/

def ExportFate.status : ExportFate → OtlpExportStatus
  | .waiting => .pending
  | .shed => .dropped
  | .encodingFailed => .failed
  | .queueFull => .dropped
  | .exporterStopped => .failed
  | .cancelled => .failed
  | .responded outcome => outcome.status

def TellsFate (fate : ExportFate) (diagnostics : WindowDiagnostics) : Prop := diagnostics.otlp.status = fate.status

structure StatusFits (fate : ExportFate) (status : OtlpExportStatus) : Prop where
  settled : fate ≠ .waiting ∧ fate ≠ .exporterStopped
  final : status ≠ .pending ∧ status ≠ .disabled
  dropped : status = .dropped ↔ fate = .shed ∨ fate = .queueFull
  failed : status = .failed ↔
    fate = .encodingFailed ∨ fate = .cancelled ∨ ∃ outcome, fate = .responded outcome ∧ outcome.delivered = false
  partlyExported : status = .partlyExported ↔ ∃ outcome, fate = .responded outcome ∧ outcome.delivered = true ∧
    (outcome.rejectedProfiles ≠ 0 ∨ outcome.error.isSome)
  exported : status = .exported ↔ ∃ outcome, fate = .responded outcome ∧ outcome.delivered = true ∧
    outcome.rejectedProfiles = 0 ∧ outcome.error = none

theorem responded_fits (outcome : ExportOutcome) : StatusFits (.responded outcome) outcome.status := by
  unfold ExportOutcome.status
  cases hd : outcome.delivered with
  | false =>
    refine ⟨⟨nofun, nofun⟩, ?_, ?_, ?_, ?_, ?_⟩ <;> simp [hd]
  | true =>
    by_cases hp : outcome.rejectedProfiles ≠ 0 ∨ outcome.error.isSome
    · rw [if_neg nofun, if_pos hp]
      refine ⟨⟨nofun, nofun⟩, ?_, ?_, ?_, ?_, ?_⟩
      · simp
      · simp
      · simp [hd]
      · simpa [hd] using hp
      · simp only [reduceCtorEq, false_iff]
        rintro ⟨other, he, -, hr, hn⟩
        cases he
        rcases hp with hp | hp
        · exact hp hr
        · rw [hn] at hp
          cases hp
    · rw [if_neg nofun, if_neg hp]
      obtain ⟨hr, hn⟩ := not_or.mp hp
      rw [not_not] at hr
      refine ⟨⟨nofun, nofun⟩, ?_, ?_, ?_, ?_, ?_⟩
      · simp
      · simp
      · simp [hd]
      · simp only [reduceCtorEq, false_iff]
        rintro ⟨other, he, -, hbad⟩
        cases he
        exact hp hbad
      · simpa [hd, hr] using hn

theorem status_fits {fate : ExportFate} (hwaiting : fate ≠ .waiting) (hstopped : fate ≠ .exporterStopped) :
    StatusFits fate fate.status := by
  cases fate with
  | waiting => exact (hwaiting rfl).elim
  | exporterStopped => exact (hstopped rfl).elim
  | responded outcome => exact responded_fits outcome
  | shed => refine ⟨⟨nofun, nofun⟩, ?_, ?_, ?_, ?_, ?_⟩ <;> simp [ExportFate.status]
  | encodingFailed => refine ⟨⟨nofun, nofun⟩, ?_, ?_, ?_, ?_, ?_⟩ <;> simp [ExportFate.status]
  | queueFull => refine ⟨⟨nofun, nofun⟩, ?_, ?_, ?_, ?_, ?_⟩ <;> simp [ExportFate.status]
  | cancelled => refine ⟨⟨nofun, nofun⟩, ?_, ?_, ?_, ?_, ?_⟩ <;> simp [ExportFate.status]

/-! ## Recorded windows -/

/-- The window of this index as `record` submitted it, shed any number of times. -/
def RecordedAs (args : RecordArgs) (window : WindowOutput) (index : ℕ) : Prop :=
  ∃ collected : CollectedWindow args, collected.index = index ∧
    ∃ pendings : List ℕ, window = pendings.foldl WindowOutput.shedDerivedOutputs (recordWindow args collected)

section
variable {args : RecordArgs} {window : WindowOutput} {index : ℕ}

theorem RecordedAs.shed (h : RecordedAs args window index) (pending : ℕ) :
    RecordedAs args (window.shedDerivedOutputs pending) index := by
  obtain ⟨collected, hindex, pendings, rfl⟩ := h
  refine ⟨collected, hindex, pendings ++ [pending], ?_⟩
  rw [List.foldl_append]
  rfl

theorem RecordedAs.path (h : RecordedAs args window index) : window.diagnosticsPath = ⟨.diagnostics, index⟩ := by
  obtain ⟨collected, rfl, pendings, rfl⟩ := h
  exact (kept_foldl _ pendings).diagnosticsPath

theorem RecordedAs.listed (h : RecordedAs args window index) :
    window.diagnosticsPath ∈ window.diagnostics.outputs := by
  obtain ⟨collected, -, pendings, rfl⟩ := h
  have hlisted := (outline_listed args collected pendings).outputs
  have hmem := RustProfile.WindowOutput.diagnosticsPath_mem
    (pendings.foldl WindowOutput.shedDerivedOutputs (recordWindow args collected)).outline
  rw [← hlisted] at hmem
  exact hmem

theorem RecordedAs.status (h : RecordedAs args window index) (hotlp : args.otlp = true) :
    window.diagnostics.otlp.status = if window.exportOtlp then .pending else .dropped := by
  obtain ⟨collected, -, pendings, rfl⟩ := h
  have hpending : (recordWindow args collected).diagnostics.otlp.status = .pending := by
    change (otlpDiagnostics args collected.toWindowData).status = .pending
    rw [otlpDiagnostics, if_pos hotlp]
  have hexports : Exports (recordWindow args collected) := ⟨rfl, by rw [hpending]; nofun⟩
  rcases foldl_shed (recordWindow args collected) pendings with h | h
  · rw [h]
    exact hpending
  · have hexport := h.exportOtlp
    simp only [hexports, decide_true, Bool.not_true, Bool.and_false] at hexport
    rw [h.status, if_pos hexports, hexport]
    rfl

end

/-! ## Published windows -/

section
variable {args : RecordArgs} {window : WindowOutput} {index : ℕ} {context : WriteContext}

theorem encodedOtlp_failed {error : String} (h : window.payload context = some (.error error)) :
    (window.encodedOtlp context).status = .failed := by
  unfold WindowOutput.encodedOtlp
  dsimp only
  rw [h]

theorem encodedOtlp_kept (h : ∀ error, window.payload context ≠ some (.error error)) :
    (window.encodedOtlp context).status = window.diagnostics.otlp.status := by
  unfold WindowOutput.encodedOtlp
  dsimp only
  cases hp : window.payload context with
  | none => cases window.timelineProfile context <;> rfl
  | some result =>
    cases result with
    | ok payload => cases window.timelineProfile context <;> rfl
    | error error => exact (h error hp).elim

/-- A window is published with a job, or with the status that its fate calls for. -/
theorem published_cases (context : WriteContext) (h : RecordedAs args window index) (hotlp : args.otlp = true)
    (hcontext : context.otlp = args.otlp) :
    (ExporterState.publishedFate window context = .waiting ∧ ∃ job, window.job context = some job ∧
      job.diagnosticsPath = window.diagnosticsPath) ∨
    (window.job context = none ∧ ExporterState.publishedFate window context ≠ .waiting ∧
      ExporterState.publishedFate window context ≠ .exporterStopped ∧
      TellsFate (ExporterState.publishedFate window context) (window.writtenDiagnostics context)) := by
  have hstatus := h.status hotlp
  have hwanted : window.wantsOtlp context = window.exportOtlp := by
    unfold WindowOutput.wantsOtlp
    rw [hcontext, hotlp, Bool.true_and]
  cases hexport : window.exportOtlp with
  | false =>
    have hpayload : window.payload context = none := by
      unfold WindowOutput.payload
      rw [hwanted, hexport]
      rfl
    -- Shed by the writer's caller: the diagnostics already say so, and encoding leaves them alone.
    have hfate : ExporterState.publishedFate window context = .shed := if_pos hexport
    rw [hexport] at hstatus
    refine Or.inr ⟨?_, ?_, ?_, ?_⟩
    · unfold WindowOutput.job
      rw [hpayload]
    · rw [hfate]
      nofun
    · rw [hfate]
      nofun
    · rw [hfate]
      exact (encodedOtlp_kept (by rw [hpayload]; nofun)).trans hstatus
  | true =>
    have hpayload : ∃ result, window.payload context = some result := by
      unfold WindowOutput.payload
      rw [hwanted, hexport]
      exact ⟨_, rfl⟩
    obtain ⟨result, hpayload⟩ := hpayload
    have hnot : ¬ window.exportOtlp = false := by
      rw [hexport]
      nofun
    cases result with
    | ok payload =>
      refine Or.inl ⟨?_, ?_⟩
      · unfold ExporterState.publishedFate
        rw [if_neg hnot, hpayload]
      · unfold WindowOutput.job
        rw [hpayload]
        exact ⟨_, rfl, rfl⟩
    | error error =>
      have hfate : ExporterState.publishedFate window context = .encodingFailed := by
        unfold ExporterState.publishedFate
        rw [if_neg hnot, hpayload]
      refine Or.inr ⟨?_, ?_, ?_, ?_⟩
      · unfold WindowOutput.job
        rw [hpayload]
      · rw [hfate]
        nofun
      · rw [hfate]
        nofun
      · rw [hfate]
        exact encodedOtlp_failed hpayload

end

/-- Parts that are all published have no timeline that failed. -/
theorem timeline_of_publishParts {faults : Faults} : ∀ (parts : List Part) {disk : Disk},
    (publishParts faults parts disk).1 = .ok () → .timeline true ∉ parts
  | [], _, _ => List.not_mem_nil
  | .file path contents :: rest, disk, h => by
    rw [publishParts] at h
    cases hw : faults.write path with
    | ok =>
      simp only [hw] at h
      intro hmem
      exact timeline_of_publishParts rest h ((List.mem_cons.mp hmem).resolve_left fun he => by cases he)
    | unpublished =>
      simp only [hw] at h
      cases h
    | unsynced =>
      simp only [hw] at h
      cases h
  | .timeline failed :: rest, disk, h => by
    rw [publishParts] at h
    cases failed with
    | true => cases h
    | false =>
      intro hmem
      exact timeline_of_publishParts rest h ((List.mem_cons.mp hmem).resolve_left fun he => by cases he)

theorem writeInner_parts_ok {window : WindowOutput} {faults : Faults} {context : WriteContext} {session : OutputSession}
    {job : Option ExportJob} (h : (window.writeInner faults context session).result = .ok job) :
    (publishParts faults (window.parts context) session.disk).1 = .ok () := by
  unfold WindowOutput.writeInner at h
  rcases hp : publishParts faults (window.parts context) session.disk with ⟨result, published, disk⟩
  cases result with
  | ok => rfl
  | error error =>
    simp only [hp] at h
    cases h

/-- What is published here is what `write_inner` writes and returns when it succeeds. -/
theorem publishWindow_writeInner {S : Type} (s : ExporterState S) (args : RecordArgs) (keepWindows : ℕ)
    (window : WindowOutput) (inputs : WriteInputs) {faults : Faults} {session : OutputSession} {job : Option ExportJob}
    (h : (window.writeInner faults (inputs.context args keepWindows) session).result = .ok job) :
    ∃ diagnostics, s.publishWindow args keepWindows window inputs =
        { s.settles window.diagnosticsPath (ExporterState.publishedFate window (inputs.context args keepWindows)) with
          disk := s.disk.insert window.diagnosticsPath diagnostics
          retained := s.retained ++ [window.diagnostics.outputs]
          phase := .pruning window.diagnostics.outputs job [] } ∧
      (window.diagnosticsPath, .diagnostics diagnostics) ∈
        (window.writeInner faults (inputs.context args keepWindows) session).published := by
  obtain ⟨rfl, hpublished⟩ := writeInner_ok h
  refine ⟨window.writtenDiagnostics (inputs.context args keepWindows), ?_, ?_⟩
  · unfold ExporterState.publishWindow
    refine if_neg fun ⟨hwants, hnone⟩ => ?_
    refine timeline_of_publishParts _ (writeInner_parts_ok h) ?_
    unfold WindowOutput.parts
    rw [if_pos hwants, hnone]
    simp
  · rw [hpublished]
    unfold WindowOutput.parts
    rw [List.filterMap_append]
    exact List.mem_append_right _ List.mem_cons_self

/-! ## What is on its way -/

def ExporterThread.waiting : ExporterThread → List SessionFile
  | .received job => [job.diagnosticsPath]
  | .exporting job => [job.diagnosticsPath]
  | _ => []

def ExporterThread.decided : ExporterThread → List (SessionFile × WindowDiagnostics)
  | .settled job => [(job.diagnosticsPath, job.diagnostics)]
  | .persisting job => [(job.diagnosticsPath, job.diagnostics)]
  | _ => []

def WritePhase.waiting : WritePhase → List SessionFile
  | .pruning _ job _ => (job.map ExportJob.diagnosticsPath).toList
  | .handing job => (job.map ExportJob.diagnosticsPath).toList
  | _ => []

def WritePhase.decided : WritePhase → List (SessionFile × WindowDiagnostics)
  | .settled job => [(job.diagnosticsPath, job.diagnostics)]
  | .persisting job => [(job.diagnosticsPath, job.diagnostics)]
  | _ => []

/-- The files of the worker's window whose export is not settled on the disk. -/
def WritePhase.unsettled (phase : WritePhase) : List SessionFile := phase.waiting ++ phase.decided.map Prod.fst

def WritePhase.Covered : WritePhase → Prop
  | .pruning outputs job _ => ∀ path ∈ (job.map ExportJob.diagnosticsPath).toList, path ∈ outputs
  | _ => True

def WritePhase.unpublished : WritePhase → OutputWorker WindowOutput → List WindowOutput
  | .idle, worker => worker.held
  | _, _ => []

namespace ExporterState

variable {S : Type} (s : ExporterState S)

def outbox : Outbox SessionFile WindowDiagnostics ExportFate where
  stored := s.disk
  fates := s.fates
  waiting := s.exporter.waiting ++ s.jobs.map ExportJob.diagnosticsPath ++ s.phase.waiting
  decided := s.exporter.decided ++ s.phase.decided

def unpublished : List WindowOutput := s.phase.unpublished s.writer.worker ++ s.writer.ahead

def Gone : Prop := s.writer.recorder = .gone ∧ s.ending = .ended

/-- The condition on a step: the worker does not panic on a file whose export is unsettled, a
rollback removes it, and a file that is there is found. -/
def Settles (args : RecordArgs) (s : ExporterState S) : ExporterStep args S → Prop
  | .writer .panic => ∀ path ∈ s.phase.unsettled, path ∉ s.disk
  | .prune (some removes) => ∀ path ∈ s.phase.waiting, path ∈ s.disk → removes path = true
  | .workerFinds found => ∀ entry ∈ s.phase.decided, entry.1 ∈ s.disk → found = true
  | .exporterFinds found => ∀ entry ∈ s.exporter.decided, entry.1 ∈ s.disk → found = true
  | _ => True

end ExporterState

def ExporterStep.goesWell {args : RecordArgs} {S : Type} : ExporterStep args S → Bool
  | .writer .panic => false
  | .prune (some _) => false
  | .workerFinds found => found
  | .exporterFinds found => found
  | _ => true

theorem guarded_of_goesWell {args : RecordArgs} {S : Type} {step : ExporterState S → ExporterStep args S →
    Option (ExporterState S)} {s : ExporterState S} {steps : List (ExporterStep args S)}
    (h : steps.all ExporterStep.goesWell = true) : Guarded step (ExporterState.Settles args) s steps := by
  refine guarded_of_forall _ fun action hmem s => ?_
  have hwell := List.all_eq_true.mp h action hmem
  cases action with
  | writer action => cases action <;> trivial
  | prune fails => cases fails <;> trivial
  | workerFinds found => exact fun _ _ _ => hwell
  | exporterFinds found => exact fun _ _ _ => hwell
  | _ => trivial

/-! ## The windows that are not published -/

section
variable (args : RecordArgs)

structure Windows (windows : List WindowOutput) (fates : Table SessionFile ExportFate) (next : ℕ) : Prop where
  recorded : ∀ w ∈ windows, ∃ index < next, RecordedAs args w index
  distinct : (windows.map WindowOutput.diagnosticsPath).Nodup
  fresh : ∀ w ∈ windows, w.diagnosticsPath ∉ fates
  known : ∀ path ∈ fates, path.window < next

variable {args} {windows windows' : List WindowOutput} {fates : Table SessionFile ExportFate} {next : ℕ}

theorem shedOutput_path (w : WindowOutput) (pending : ℕ) :
    (ExporterState.shedOutput w pending).diagnosticsPath = w.diagnosticsPath :=
  (shedDerivedOutputs_shed w pending).diagnosticsPath

theorem Windows.passes (h : Windows args windows fates next) (hp : Passes ExporterState.shedOutput windows windows') :
    Windows args windows' fates next := by
  refine ⟨?_, h.distinct.sublist (hp.map shedOutput_path), ?_, h.known⟩
  · refine hp.forall (fun w pending hw => ?_) h.recorded
    obtain ⟨index, hindex, hw⟩ := hw
    exact ⟨index, hindex, hw.shed pending⟩
  · refine hp.forall (fun w pending hw => ?_) h.fresh
    rw [shedOutput_path]
    exact hw

theorem Windows.submit (h : Windows args windows fates next) (collected : CollectedWindow args)
    (hindex : collected.index = next) :
    Windows args (windows ++ [recordWindow args collected]) fates (next + 1) := by
  have hpath : (recordWindow args collected).diagnosticsPath.window = next := hindex
  refine ⟨?_, ?_, ?_, fun path hpath => (h.known path hpath).trans (Nat.lt_succ_self next)⟩
  · intro w hw
    rcases List.mem_append.mp hw with hw | hw
    · obtain ⟨index, hlt, hw⟩ := h.recorded w hw
      exact ⟨index, hlt.trans (Nat.lt_succ_self next), hw⟩
    · rw [List.mem_singleton.mp hw]
      exact ⟨next, Nat.lt_succ_self next, collected, hindex, [], rfl⟩
  · rw [List.map_append]
    refine List.nodup_append.mpr ⟨h.distinct, List.nodup_singleton _, ?_⟩
    intro path hmem other hother he
    obtain ⟨w, hw, rfl⟩ := List.mem_map.mp hmem
    obtain ⟨index, hlt, hw⟩ := h.recorded w hw
    rw [List.map_singleton, List.mem_singleton] at hother
    have hwindow := congrArg SessionFile.window (he.trans hother)
    rw [hpath, hw.path] at hwindow
    exact Nat.ne_of_lt hlt hwindow
  · intro w hw
    rcases List.mem_append.mp hw with hw | hw
    · exact h.fresh w hw
    · rw [List.mem_singleton.mp hw]
      intro hmem
      exact Nat.ne_of_lt (h.known _ hmem) hpath

theorem Windows.publish {window : WindowOutput} (h : Windows args (window :: windows) fates next) (fate : ExportFate) :
    Windows args windows (fates.insert window.diagnosticsPath fate) next := by
  have hnodup := List.nodup_cons.mp h.distinct
  refine ⟨fun w hw => h.recorded w (List.mem_cons_of_mem _ hw), hnodup.2, fun w hw hmem => ?_, fun path hmem => ?_⟩
  · rcases (AList.mem_insert _).mp hmem with he | hmem
    · exact hnodup.1 (he ▸ List.mem_map_of_mem hw)
    · exact h.fresh w (List.mem_cons_of_mem _ hw) hmem
  · rcases (AList.mem_insert _).mp hmem with rfl | hmem
    · obtain ⟨index, hlt, hw⟩ := h.recorded window List.mem_cons_self
      rw [hw.path]
      exact hlt
    · exact h.known path hmem

theorem Windows.settle (h : Windows args windows fates next) {path : SessionFile} (hpath : path ∈ fates)
    (fate : ExportFate) : Windows args windows (fates.insert path fate) next := by
  have hmem : ∀ other, other ∈ fates.insert path fate → other ∈ fates := by
    intro other hother
    rcases (AList.mem_insert _).mp hother with rfl | hother
    · exact hpath
    · exact hother
  exact ⟨h.recorded, h.distinct, fun w hw hw' => h.fresh w hw (hmem _ hw'), fun other hother =>
    h.known other (hmem other hother)⟩

end

/-! ## The invariant -/

structure ExporterInv {S : Type} (args : RecordArgs) (start : S) (s : ExporterState S) : Prop where
  writer : WriterInv ExporterState.shedOutput start s.writer
  windows : Windows args s.unpublished s.fates s.nextIndex
  outbox : Consistent .waiting TellsFate s.outbox
  heard : ∀ path, s.fates.lookup path ≠ some .exporterStopped
  writes : s.phase = .idle ∨ ∃ window, s.writer.worker = .writing window
  covered : s.phase.Covered
  exited : s.exporter = .exited → s.jobs = [] ∧ s.recorderSender = false ∧ ∃ reason, s.writer.worker = .exited reason
  ended : s.ending = .ended → s.exporter = .exited

theorem exporterInv_start {S : Type} (args : RecordArgs) (symbolizer : S) :
    ExporterInv args symbolizer (.start args symbolizer) := by
  refine ⟨writerInv_start _ _ _, ⟨?_, List.nodup_nil, ?_, ?_⟩, consistent_empty, ?_, Or.inl rfl, trivial, ?_, ?_⟩
  · intro w hw
    cases hw
  · intro w hw
    cases hw
  · intro path hpath
    cases hpath
  · intro path he
    cases he
  · intro he
    cases he
  · intro he
    cases he

section
variable {S : Type} {args : RecordArgs} {start : S} {s t : ExporterState S}

theorem heard_insert {fates : Table SessionFile ExportFate} (h : ∀ path, fates.lookup path ≠ some .exporterStopped)
    {path : SessionFile} {fate : ExportFate} (hfate : fate ≠ .exporterStopped) (other : SessionFile) :
    (fates.insert path fate).lookup other ≠ some .exporterStopped := by
  rw [Table.lookup_insert]
  split
  · intro he
    exact hfate (Option.some.inj he)
  · exact h other

theorem ExporterInv.ahead (h : ExporterInv args start s) (hp : s.phase ≠ .idle) :
    Windows args s.writer.ahead s.fates s.nextIndex := by
  have hwindows := h.windows
  unfold ExporterState.unpublished at hwindows
  cases hphase : s.phase with
  | idle => exact (hp hphase).elim
  | pruning outputs job left => rwa [hphase] at hwindows
  | handing job => rwa [hphase] at hwindows
  | settled job => rwa [hphase] at hwindows
  | persisting job => rwa [hphase] at hwindows
  | returning result => rwa [hphase] at hwindows

/-- While the worker writes the exporter cannot have exited. -/
theorem ExporterInv.attached (h : ExporterInv args start s) {window : WindowOutput}
    (hw : s.writer.worker = .writing window) : s.exporter ≠ .exited := by
  intro he
  obtain ⟨-, -, reason, hexited⟩ := h.exited he
  rw [hw] at hexited
  cases hexited

structure SameOthers (s t : ExporterState S) : Prop where
  writer : t.writer = s.writer
  nextIndex : t.nextIndex = s.nextIndex
  exporter : t.exporter = s.exporter
  ending : t.ending = s.ending

theorem ExporterInv.byWorker (h : ExporterInv args start s) {window : WindowOutput}
    (hw : s.writer.worker = .writing window) (hs : SameOthers s t)
    (hwindows : Windows args t.unpublished t.fates s.nextIndex) (houtbox : Consistent .waiting TellsFate t.outbox)
    (hheard : ∀ path, t.fates.lookup path ≠ some .exporterStopped) (hcovered : t.phase.Covered) :
    ExporterInv args start t := by
  have hattached := h.attached hw
  refine ⟨hs.writer.symm ▸ h.writer, hs.nextIndex.symm ▸ hwindows, houtbox, hheard, ?_, hcovered, fun he => ?_,
    fun he => ?_⟩
  · rw [hs.writer]
    exact Or.inr ⟨window, hw⟩
  · rw [hs.exporter] at he
    exact (hattached he).elim
  · rw [hs.ending] at he
    exact (hattached (h.ended he)).elim

/-! ## The worker's steps -/

theorem lookup_eraseAll (removes : SessionFile → Bool) : ∀ (outputs : List SessionFile)
    (disk : Table SessionFile WindowDiagnostics) (path : SessionFile),
    (outputs.foldl (fun disk path => if removes path then disk.erase path else disk) disk).lookup path =
      if path ∈ outputs ∧ removes path = true then none else disk.lookup path
  | [], _, _ => (if_neg fun h => absurd h.1 List.not_mem_nil).symm
  | output :: outputs, disk, path => by
    have hhead : (if removes output then disk.erase output else disk).lookup path =
        if path = output ∧ removes path = true then none else disk.lookup path := by
      by_cases he : path = output
      · subst he
        split <;> simp [*]
      · split <;> simp [he]
    rw [List.foldl_cons, lookup_eraseAll removes outputs, hhead]
    by_cases hremoves : removes path = true <;> by_cases hmem : path ∈ outputs <;> simp [hremoves, hmem]

section
variable {window : WindowOutput} (h : ExporterInv args start s) (hw : s.writer.worker = .writing window)

include h hw

/-- A window that is rolled back takes the job that waits with it. -/
theorem ExporterInv.rollback (hahead : Windows args s.writer.ahead s.fates s.nextIndex) {outputs : List SessionFile}
    {removes : SessionFile → Bool} (hwaiting : ∀ path ∈ s.phase.waiting, path ∈ outputs)
    (hremoves : ∀ path ∈ s.phase.waiting, path ∈ s.disk → removes path = true) (hdecided : s.phase.decided = [])
    (error : String) : ExporterInv args start (s.rollback outputs removes error) := by
  have hlookup := lookup_eraseAll removes outputs s.disk
  refine h.byWorker hw ⟨rfl, rfl, rfl, rfl⟩ hahead ?_ h.heard trivial
  have houtbox := h.outbox
  unfold ExporterState.outbox at houtbox
  rw [hdecided] at houtbox
  have herased : Consistent .waiting TellsFate
      ⟨outputs.foldl (fun disk path => if removes path then disk.erase path else disk) s.disk, s.fates,
        s.exporter.waiting ++ s.jobs.map ExportJob.diagnosticsPath ++ s.phase.waiting, s.exporter.decided ++ []⟩ := by
    refine houtbox.shrink fun path diagnostics hk => ?_
    rw [hlookup] at hk
    split at hk
    · cases hk
    · exact hk
  have hgone := herased.abandon fun path hpath hmem => by
    obtain ⟨v, hv⟩ := Table.mem_iff.mp hmem
    rw [hlookup] at hv
    split at hv
    · cases hv
    · rename_i hleft
      exact hleft ⟨hwaiting path hpath, hremoves path hpath (Table.mem_of_lookup hv)⟩
  refine hgone.perm ?_ (List.Perm.refl _)
  exact List.Perm.of_eq (List.append_nil _).symm

theorem ExporterInv.publishWindow (hotlp : args.otlp = true) (hp : s.phase = .idle) (keepWindows : ℕ)
    (inputs : WriteInputs) : ExporterInv args start (s.publishWindow args keepWindows window inputs) := by
  have hwindows : Windows args (window :: s.writer.ahead) s.fates s.nextIndex := by
    have hwindows := h.windows
    unfold ExporterState.unpublished at hwindows
    rw [hp, hw] at hwindows
    exact hwindows
  have hahead : Windows args s.writer.ahead s.fates s.nextIndex :=
    hwindows.passes (passes_of_sublist (List.sublist_cons_self _ _))
  obtain ⟨index, -, hrecorded⟩ := hwindows.recorded window List.mem_cons_self
  have hfresh := hwindows.fresh window List.mem_cons_self
  have houtbox := h.outbox
  unfold ExporterState.outbox at houtbox
  rw [hp] at houtbox
  unfold ExporterState.publishWindow
  extract_lets context
  split
  · refine h.rollback hw hahead ?_ ?_ ?_ _
    · rw [hp]
      nofun
    · rw [hp]
      nofun
    · rw [hp]
      rfl
  · rcases published_cases context hrecorded hotlp rfl with
      ⟨hfate, job, hjob, hpath⟩ | ⟨hjob, hne, hstopped, htells⟩
    · have hpublished := houtbox.publish hfresh (window.writtenDiagnostics context)
      refine h.byWorker hw ⟨rfl, rfl, rfl, rfl⟩ (hwindows.publish _) ?_ (heard_insert h.heard ?_) ?_
      · change Consistent .waiting TellsFate
          ⟨_, s.fates.insert window.diagnosticsPath (ExporterState.publishedFate window context),
            _ ++ ((window.job context).map ExportJob.diagnosticsPath).toList, _⟩
        rw [hfate, hjob, Option.map_some, hpath]
        refine hpublished.perm ?_ (List.Perm.refl _)
        rw [show WritePhase.idle.waiting = [] from rfl, List.append_nil]
        exact (List.perm_append_singleton _ _).symm
      · rw [hfate]
        nofun
      · intro path hmem
        rw [hjob, Option.map_some, hpath] at hmem
        rw [List.mem_singleton.mp hmem]
        exact hrecorded.listed
    · have hpublished := houtbox.publishTold hfresh hne htells
      refine h.byWorker hw ⟨rfl, rfl, rfl, rfl⟩ (hwindows.publish _) ?_ (heard_insert h.heard hstopped) ?_
      · change Consistent .waiting TellsFate
          ⟨_, _, _ ++ ((window.job context).map ExportJob.diagnosticsPath).toList, _⟩
        rw [hjob]
        exact hpublished
      · intro path hmem
        rw [hjob] at hmem
        cases hmem

theorem ExporterInv.pruneFile {outputs left : List SessionFile} {job : Option ExportJob}
    (hp : s.phase = .pruning outputs job left) {keepWindows : ℕ} {fails : Option (SessionFile → Bool)}
    (hsettles : s.Settles args (.prune fails))
    (ht : s.pruneFile keepWindows outputs job left fails = some t) : ExporterInv args start t := by
  have hahead := h.ahead (by rw [hp]; nofun)
  have hcovered := h.covered
  have houtbox := h.outbox
  unfold ExporterState.outbox at houtbox
  rw [hp] at hcovered houtbox
  cases left with
  | cons path left =>
    cases fails with
    | some removes =>
      cases ht
      refine h.rollback hw hahead ?_ hsettles ?_ _
      · rw [hp]
        exact hcovered
      · rw [hp]
        rfl
    | none =>
      cases ht
      exact h.byWorker hw ⟨rfl, rfl, rfl, rfl⟩ hahead houtbox.erase h.heard hcovered
  | nil =>
    have hhanding : ExporterInv args start { s with phase := .handing job } :=
      h.byWorker hw ⟨rfl, rfl, rfl, rfl⟩ hahead houtbox h.heard trivial
    cases fails with
    | some removes => cases ht
    | none =>
      simp only [ExporterState.pruneFile] at ht
      split at ht
      · split at ht
        · cases ht
          exact h.byWorker hw ⟨rfl, rfl, rfl, rfl⟩ hahead houtbox h.heard hcovered
        · cases ht
          exact hhanding
      · cases ht
        exact hhanding

theorem ExporterInv.workerSettles {job : ExportJob} (hahead : Windows args s.writer.ahead s.fates s.nextIndex)
    (hwaiting : s.phase.waiting = [job.diagnosticsPath]) (hdecided : s.phase.decided = []) {fate : ExportFate}
    (hne : fate ≠ .waiting) (hstopped : fate ≠ .exporterStopped) {status : OtlpExportStatus}
    (hstatus : status = fate.status) (error : Option String) :
    ExporterInv args start
      { s.settles job.diagnosticsPath fate with phase := .settled (job.settle status error) } := by
  have houtbox := h.outbox
  unfold ExporterState.outbox at houtbox
  rw [hwaiting, hdecided, List.append_nil] at houtbox
  have hpath : job.diagnosticsPath ∈ s.fates :=
    Table.mem_of_lookup (houtbox.waiting _ (List.mem_append_right _ (List.mem_singleton_self _)))
  refine h.byWorker hw ⟨rfl, rfl, rfl, rfl⟩ (hahead.settle hpath fate) ?_ (heard_insert h.heard hstopped) trivial
  have htold := (houtbox.perm (List.perm_append_singleton _ _) (List.Perm.refl _)).decide
    (v := (job.settle status error).diagnostics) hne hstatus
  refine htold.perm (List.Perm.of_eq (List.append_nil _).symm) ?_
  exact (List.perm_append_singleton _ _).symm

theorem ExporterInv.handOver {job : Option ExportJob} (hp : s.phase = .handing job) :
    ExporterInv args start (s.handOver job) := by
  have hahead := h.ahead (by rw [hp]; nofun)
  have houtbox := h.outbox
  unfold ExporterState.outbox at houtbox
  rw [hp] at houtbox
  cases job with
  | none => exact h.byWorker hw ⟨rfl, rfl, rfl, rfl⟩ hahead houtbox h.heard trivial
  | some job =>
    unfold ExporterState.handOver
    dsimp only
    split
    next channel hsent =>
      obtain ⟨-, -, rfl⟩ := trySend_sent hsent
      refine h.byWorker hw ⟨rfl, rfl, rfl, rfl⟩ hahead ?_ h.heard trivial
      refine houtbox.perm (List.Perm.of_eq ?_) (List.Perm.refl _)
      simp [WritePhase.waiting, ExporterState.channel]
    next =>
      have hfull : ExportFate.queueFull ≠ .waiting := nofun
      exact h.workerSettles hw hahead (by rw [hp]; rfl) (by rw [hp]; rfl) hfull nofun rfl _
    next hdisconnected =>
      have hreceiver := trySend_disconnected hdisconnected
      unfold ExporterState.channel at hreceiver
      have hattached := h.attached hw
      cases he : s.exporter with
      | exited => exact (hattached he).elim
      | receiving => simp [he] at hreceiver
      | received job => simp [he] at hreceiver
      | exporting job => simp [he] at hreceiver
      | settled job => simp [he] at hreceiver
      | persisting job => simp [he] at hreceiver

theorem ExporterInv.workerFinds {job : ExportJob} (hp : s.phase = .settled job) {found : Bool}
    (hsettles : s.Settles args (.workerFinds found)) :
    ExporterInv args start
      { s with
        phase := if found = true ∧ job.diagnosticsPath ∈ s.disk then .persisting job else .returning (.ok ()) } := by
  have hahead := h.ahead (by rw [hp]; nofun)
  have houtbox := h.outbox
  unfold ExporterState.outbox at houtbox
  rw [hp] at houtbox
  split
  · exact h.byWorker hw ⟨rfl, rfl, rfl, rfl⟩ hahead houtbox h.heard trivial
  · rename_i hnot
    have hmissing : job.diagnosticsPath ∉ s.disk := fun hmem =>
      hnot ⟨hsettles (job.diagnosticsPath, job.diagnostics) (by rw [hp]; exact List.mem_singleton_self _) hmem, hmem⟩
    refine h.byWorker hw ⟨rfl, rfl, rfl, rfl⟩ hahead ?_ h.heard trivial
    have hforgotten := houtbox.forget fun entry hentry => by
      rw [List.mem_singleton.mp hentry]
      exact hmissing
    exact hforgotten.perm (List.Perm.refl _) (List.Perm.of_eq (List.append_nil _).symm)

theorem ExporterInv.workerPersists {job : ExportJob} (hp : s.phase = .persisting job) :
    ExporterInv args start
      { s with disk := s.disk.insert job.diagnosticsPath job.diagnostics, phase := .returning (.ok ()) } := by
  have hahead := h.ahead (by rw [hp]; nofun)
  have houtbox := h.outbox
  unfold ExporterState.outbox at houtbox
  rw [hp] at houtbox
  refine h.byWorker hw ⟨rfl, rfl, rfl, rfl⟩ hahead ?_ h.heard trivial
  have hwritten := (houtbox.perm (List.Perm.refl _) (List.perm_append_singleton _ _)).persist
  exact hwritten.perm (List.Perm.refl _) (List.Perm.of_eq (List.append_nil _).symm)

end

/-! ## The exporter's steps -/

structure SameWriter (s t : ExporterState S) : Prop where
  writer : t.writer = s.writer
  nextIndex : t.nextIndex = s.nextIndex
  phase : t.phase = s.phase
  recorderSender : t.recorderSender = s.recorderSender
  ending : t.ending = s.ending

theorem ExporterInv.byExporter (h : ExporterInv args start s) (hlive : s.exporter ≠ .exited) (hs : SameWriter s t)
    (hwindows : Windows args s.unpublished t.fates s.nextIndex) (houtbox : Consistent .waiting TellsFate t.outbox)
    (hheard : ∀ path, t.fates.lookup path ≠ some .exporterStopped)
    (hexited : t.exporter = .exited →
      t.jobs = [] ∧ s.recorderSender = false ∧ ∃ reason, s.writer.worker = .exited reason) :
    ExporterInv args start t := by
  refine ⟨hs.writer.symm ▸ h.writer, ?_, houtbox, hheard, ?_, hs.phase.symm ▸ h.covered, fun he => ?_, fun he => ?_⟩
  · unfold ExporterState.unpublished
    rw [hs.phase, hs.writer, hs.nextIndex]
    exact hwindows
  · rw [hs.phase, hs.writer]
    exact h.writes
  · rw [hs.recorderSender, hs.writer]
    exact hexited he
  · rw [hs.ending] at he
    exact (hlive (h.ended he)).elim

section
variable (h : ExporterInv args start s)

include h

theorem ExporterInv.receiveJob (he : s.exporter = .receiving) (ht : s.receiveJob = some t) :
    ExporterInv args start t := by
  have hlive : s.exporter ≠ .exited := by
    rw [he]
    nofun
  have houtbox := h.outbox
  unfold ExporterState.outbox at houtbox
  rw [he] at houtbox
  unfold ExporterState.receiveJob at ht
  split at ht
  next job channel hreceived =>
    cases ht
    obtain ⟨hqueue, -⟩ := tryRecv_received hreceived
    change s.jobs = job :: channel.queue at hqueue
    refine h.byExporter hlive ⟨rfl, rfl, rfl, rfl, rfl⟩ h.windows ?_ h.heard nofun
    rw [hqueue] at houtbox
    exact houtbox
  next => cases ht
  next hdisconnected =>
    cases ht
    obtain ⟨hqueue, hsender⟩ := tryRecv_disconnected hdisconnected
    refine h.byExporter hlive ⟨rfl, rfl, rfl, rfl, rfl⟩ h.windows houtbox h.heard fun _ => ⟨hqueue, ?_⟩
    obtain ⟨hrecorder, hworker⟩ := Bool.or_eq_false_iff.mp hsender
    refine ⟨hrecorder, ?_⟩
    cases hw : s.writer.worker with
    | exited reason => exact ⟨reason, rfl⟩
    | receiving => simp [hw] at hworker
    | writing window => simp [hw] at hworker
    | completing result => simp [hw] at hworker
    | stopping reason => simp [hw] at hworker

theorem ExporterInv.exporterSettles {job settled : ExportJob} (hwaiting : s.exporter.waiting = [job.diagnosticsPath])
    (hdecided : s.exporter.decided = []) {fate : ExportFate}
      (hne : fate ≠ .waiting) (hstopped : fate ≠ .exporterStopped)
    (hpath : settled.diagnosticsPath = job.diagnosticsPath) (htells : TellsFate fate settled.diagnostics) :
    ExporterInv args start { s.settles job.diagnosticsPath fate with exporter := .settled settled } := by
  have hlive : s.exporter ≠ .exited := by
    intro he
    rw [he] at hwaiting
    cases hwaiting
  have houtbox := h.outbox
  unfold ExporterState.outbox at houtbox
  rw [hwaiting, hdecided] at houtbox
  have hmem : job.diagnosticsPath ∈ s.fates := Table.mem_of_lookup (houtbox.waiting _ List.mem_cons_self)
  refine h.byExporter hlive ⟨rfl, rfl, rfl, rfl, rfl⟩ (h.windows.settle hmem fate) ?_
    (heard_insert h.heard hstopped) nofun
  have htold := houtbox.decide hne htells
  rw [← hpath] at htold ⊢
  exact htold

theorem ExporterInv.checkStopping {job : ExportJob} (he : s.exporter = .received job) :
    ExporterInv args start (s.checkStopping job) := by
  unfold ExporterState.checkStopping
  by_cases hs : s.stopping = true
  · rw [if_pos hs]
    have hcancelled : ExportFate.cancelled ≠ .waiting := nofun
    exact h.exporterSettles (by rw [he]; rfl) (by rw [he]; rfl) hcancelled nofun rfl rfl
  · rw [if_neg hs]
    have houtbox := h.outbox
    unfold ExporterState.outbox at houtbox
    rw [he] at houtbox
    exact h.byExporter (by rw [he]; nofun) ⟨rfl, rfl, rfl, rfl, rfl⟩ h.windows houtbox h.heard nofun

theorem ExporterInv.responds {job : ExportJob} (he : s.exporter = .exporting job) (outcome : ExportOutcome) :
    ExporterInv args start (s.responds job outcome) := by
  have hresponded : ExportFate.responded outcome ≠ .waiting := nofun
  exact h.exporterSettles (by rw [he]; rfl) (by rw [he]; rfl) hresponded nofun rfl rfl

theorem ExporterInv.exporterFinds {job : ExportJob} (he : s.exporter = .settled job) {found : Bool}
    (hsettles : s.Settles args (.exporterFinds found)) :
    ExporterInv args start
      { s with exporter := if found = true ∧ job.diagnosticsPath ∈ s.disk then .persisting job else .receiving } := by
  have hlive : s.exporter ≠ .exited := by
    rw [he]
    nofun
  have houtbox := h.outbox
  unfold ExporterState.outbox at houtbox
  rw [he] at houtbox
  split
  · exact h.byExporter hlive ⟨rfl, rfl, rfl, rfl, rfl⟩ h.windows houtbox h.heard nofun
  · rename_i hnot
    have hmissing : job.diagnosticsPath ∉ s.disk := fun hmem =>
      hnot ⟨hsettles (job.diagnosticsPath, job.diagnostics) (by rw [he]; exact List.mem_singleton_self _) hmem, hmem⟩
    exact h.byExporter hlive ⟨rfl, rfl, rfl, rfl, rfl⟩ h.windows (houtbox.skip hmissing) h.heard nofun

theorem ExporterInv.exporterPersists {job : ExportJob} (he : s.exporter = .persisting job) :
    ExporterInv args start
      { s with disk := s.disk.insert job.diagnosticsPath job.diagnostics, exporter := .receiving } := by
  have houtbox := h.outbox
  unfold ExporterState.outbox at houtbox
  rw [he] at houtbox
  exact h.byExporter (by rw [he]; nofun) ⟨rfl, rfl, rfl, rfl, rfl⟩ h.windows houtbox.persist h.heard nofun

end

/-! ## The recorder's steps -/

theorem moveWriter_cases {action : WriterStep WindowOutput S} (ht : s.moveWriter action = some t) :
    ∃ writer, s.writer.step ExporterState.shedOutput action = some writer ∧ t = { s with writer := writer } := by
  obtain ⟨writer, hwriter, rfl⟩ := Option.map_eq_some_iff.mp ht
  exact ⟨writer, hwriter, rfl⟩

section
variable (h : ExporterInv args start s)

include h

theorem ExporterInv.forwards {action : WriterStep WindowOutput S} {writer : WriterState WindowOutput S}
    (hstep : s.writer.step ExporterState.shedOutput action = some writer)
    (hforwards : Forwards ExporterState.shedOutput s.writer writer) :
    ExporterInv args start { s with writer := writer } := by
  refine ⟨h.writer.step hstep, ?_, h.outbox, h.heard, ?_, h.covered, ?_, h.ended⟩
  · refine h.windows.passes (Passes.append ?_ hforwards.ahead)
    rw [hforwards.worker]
    exact passes_refl _
  · rw [hforwards.worker]
    exact h.writes
  · rw [hforwards.worker]
    exact h.exited

theorem ExporterInv.works (hp : s.phase = .idle) {action : WriterStep WindowOutput S}
    {writer : WriterState WindowOutput S} (hstep : s.writer.step ExporterState.shedOutput action = some writer)
    (hworks : s.writer.workerStep action = some writer) : ExporterInv args start { s with writer := writer } := by
  refine ⟨h.writer.step hstep, ?_, h.outbox, h.heard, Or.inl hp, h.covered, fun he => ?_, h.ended⟩
  · have hwindows := h.windows
    unfold ExporterState.unpublished at hwindows ⊢
    rw [hp] at hwindows ⊢
    exact hwindows.passes (passes_of_sublist (workerStep_sublist hworks))
  · obtain ⟨-, -, reason, hexited⟩ := h.exited he
    rw [workerStep_exited hexited] at hworks
    cases hworks

theorem ExporterInv.ownStep {action : WriterStep WindowOutput S} (hown : ExporterState.ownStep action = true)
    (ht : s.moveWriter action = some t) : ExporterInv args start t := by
  obtain ⟨writer, hstep, rfl⟩ := moveWriter_cases ht
  rcases Option.or_eq_some_iff.mp hstep with hforwards | ⟨-, hworks⟩
  · refine h.forwards hstep (recorderStep_forwards (fun window he => ?_) hforwards)
    rw [he] at hown
    cases hown
  · refine h.works ?_ hstep hworks
    rcases h.writes with hidle | ⟨window, hw⟩
    · exact hidle
    · rcases workerStep_writing hw hworks with rfl | ⟨result, rfl⟩
      · cases hown
      · cases hown

/-- A panic loses what is on its way at the worker. -/
theorem ExporterInv.panics (hsettles : s.Settles args (.writer .panic)) (ht : s.moveWriter .panic = some t) :
    ExporterInv args start { t with phase := .idle } := by
  obtain ⟨writer, hstep, rfl⟩ := moveWriter_cases ht
  have hworks : s.writer.workerStep .panic = some writer :=
    ((Option.or_eq_some_iff.mp hstep).resolve_left nofun).2
  have hmoves := WriterState.workerStep_moves hworks
  have hahead : Windows args s.writer.ahead s.fates s.nextIndex := by
    by_cases hp : s.phase = .idle
    · have hwindows := h.windows
      unfold ExporterState.unpublished at hwindows
      exact hwindows.passes (passes_of_sublist (List.sublist_append_right _ _))
    · exact h.ahead hp
  have hgone := h.outbox.abandon fun path hpath => hsettles path (List.mem_append_left _ hpath)
  have hforgotten := hgone.forget fun entry hentry =>
    hsettles entry.1 (List.mem_append_right _ (List.mem_map_of_mem hentry))
  cases hmoves with
  | panic running =>
    refine ⟨h.writer.step hstep, hahead, ?_, h.heard, Or.inl rfl, trivial, fun he => ?_, h.ended⟩
    · exact hforgotten.perm (List.Perm.of_eq (List.append_nil _).symm) (List.Perm.of_eq (List.append_nil _).symm)
    · obtain ⟨-, -, reason, hexited⟩ := h.exited he
      exact absurd hexited (running reason).2

theorem ExporterInv.submit (collected : CollectedWindow args) (hindex : collected.index = s.nextIndex)
    (ht : s.moveWriter (.call (.submit (recordWindow args collected))) = some t) :
    ExporterInv args start { t with nextIndex := s.nextIndex + 1 } := by
  obtain ⟨writer, hstep, rfl⟩ := moveWriter_cases ht
  rcases Option.or_eq_some_iff.mp hstep with hsubmit | ⟨-, hworks⟩
  · obtain ⟨hworker, hahead⟩ := submit_ahead hsubmit
    refine ⟨h.writer.step hstep, ?_, h.outbox, h.heard, ?_, h.covered, ?_, h.ended⟩
    · have hwindows := h.windows.submit collected hindex
      rw [ExporterState.unpublished, List.append_assoc] at hwindows
      unfold ExporterState.unpublished
      rw [hworker, hahead]
      exact hwindows
    · rw [hworker]
      exact h.writes
    · rw [hworker]
      exact h.exited
  · cases hworks

theorem ExporterInv.returns {result : Except String Unit} (hp : s.phase = .returning result)
    (ht : s.moveWriter (.write result) = some t) : ExporterInv args start { t with phase := .idle } := by
  obtain ⟨writer, hstep, rfl⟩ := moveWriter_cases ht
  obtain ⟨window, hw⟩ : ∃ window, s.writer.worker = .writing window := by
    rcases h.writes with hidle | hw
    · rw [hp] at hidle
      cases hidle
    · exact hw
  have hwriter : s.writer.write window result = writer := by
    rcases Option.or_eq_some_iff.mp hstep with hnone | ⟨-, hworks⟩
    · cases hnone
    · simp only [WriterState.workerStep, hw] at hworks
      exact Option.some.inj hworks
  have houtbox := h.outbox
  unfold ExporterState.outbox at houtbox
  rw [hp] at houtbox
  refine ⟨h.writer.step hstep, ?_, houtbox, h.heard, Or.inl rfl, trivial, fun he => ?_, h.ended⟩
  · rw [← hwriter]
    refine h.ahead fun hidle => ?_
    rw [hp] at hidle
    cases hidle
  · exact (h.attached hw he).elim

theorem ExporterInv.flush {result : Except String Unit} (ht : s.moveWriter (.flush result) = some t) :
    ExporterInv args start t := by
  obtain ⟨writer, hstep, rfl⟩ := moveWriter_cases ht
  rcases Option.or_eq_some_iff.mp hstep with hforwards | ⟨-, hworks⟩
  · exact h.forwards hstep (recorderStep_forwards (fun window he => by cases he) hforwards)
  · cases hworks

theorem ExporterInv.ends (he : s.exporter = .exited) : ExporterInv args start { s with ending := .ended } :=
  ⟨h.writer, h.windows, h.outbox, h.heard, h.writes, h.covered, h.exited, fun _ => he⟩

/-- The recorder comes closer to the exporter's end. -/
theorem ExporterInv.approaches {sender stopping : Bool} {ending : ExporterEnd}
    (hsender : s.recorderSender = false → sender = false)
    (hending : ending ≠ .ended) :
    ExporterInv args start { s with recorderSender := sender, stopping := stopping, ending := ending } := by
  refine ⟨h.writer, h.windows, h.outbox, h.heard, h.writes, h.covered, fun he => ?_, fun he => (hending he).elim⟩
  obtain ⟨hjobs, hrecorder, hworker⟩ := h.exited he
  exact ⟨hjobs, hsender hrecorder, hworker⟩

end

/-! ## Every step -/

variable {keepWindows : ℕ} {action : ExporterStep args S}

section
variable (h : ExporterInv args start s)

include h

theorem ExporterInv.recorderStep (hsettles : s.Settles args action) (ht : s.recorderStep args action = some t) :
    ExporterInv args start t := by
  cases action with
  | submit collected =>
    unfold ExporterState.recorderStep at ht
    dsimp only at ht
    split at ht
    next hindex =>
      obtain ⟨moved, hmoved, rfl⟩ := Option.map_eq_some_iff.mp ht
      exact h.submit collected hindex hmoved
    next => cases ht
  | writer action =>
    have hown : (if ExporterState.ownStep action then s.moveWriter action else none) = some t →
        ExporterInv args start t := fun ht => by
      split at ht
      next hown => exact h.ownStep hown ht
      next => cases ht
    cases action with
    | panic =>
      obtain ⟨moved, hmoved, rfl⟩ := Option.map_eq_some_iff.mp ht
      exact h.panics hsettles hmoved
    | _ => exact hown ht
  | finishExporter =>
    unfold ExporterState.recorderStep at ht
    dsimp only at ht
    split at ht
    next =>
      cases ht
      exact h.approaches (fun _ => rfl) nofun
    next => cases ht
  | cancelExporter =>
    unfold ExporterState.recorderStep at ht
    dsimp only at ht
    split at ht
    next =>
      cases ht
      exact h.approaches id nofun
    next => cases ht
  | dropExporter =>
    unfold ExporterState.recorderStep at ht
    dsimp only at ht
    split at ht
    next =>
      cases ht
      exact h.approaches (fun _ => rfl) nofun
    next => cases ht
  | joinExporter =>
    unfold ExporterState.recorderStep at ht
    dsimp only at ht
    split at ht
    next he _ =>
      obtain ⟨moved, hmoved, rfl⟩ := Option.map_eq_some_iff.mp ht
      have hexporter : moved.exporter = .exited := by
        obtain ⟨writer, -, rfl⟩ := moveWriter_cases hmoved
        exact he
      exact (h.flush hmoved).ends hexporter
    next he _ =>
      cases ht
      exact h.ends he
    next => cases ht
  | publish inputs => cases ht
  | prune fails => cases ht
  | handOver => cases ht
  | workerFinds found => cases ht
  | workerPersists => cases ht
  | returns => cases ht
  | receiveJob => cases ht
  | checkStopping => cases ht
  | exports outcome => cases ht
  | exporterFinds found => cases ht
  | exporterPersists => cases ht

theorem ExporterInv.exporterStep (hsettles : s.Settles args action) (ht : s.exporterStep args action = some t) :
    ExporterInv args start t := by
  cases action with
  | receiveJob =>
    unfold ExporterState.exporterStep at ht
    dsimp only at ht
    split at ht
    next he => exact h.receiveJob he ht
    next => cases ht
  | checkStopping =>
    unfold ExporterState.exporterStep at ht
    dsimp only at ht
    split at ht
    next he => exact Option.some.inj ht ▸ h.checkStopping he
    next => cases ht
  | exports outcome =>
    unfold ExporterState.exporterStep at ht
    dsimp only at ht
    split at ht
    next he => exact Option.some.inj ht ▸ h.responds he outcome
    next => cases ht
  | exporterFinds found =>
    unfold ExporterState.exporterStep at ht
    dsimp only at ht
    split at ht
    next he => exact Option.some.inj ht ▸ h.exporterFinds he hsettles
    next => cases ht
  | exporterPersists =>
    unfold ExporterState.exporterStep at ht
    dsimp only at ht
    split at ht
    next he => exact Option.some.inj ht ▸ h.exporterPersists he
    next => cases ht
  | submit collected => cases ht
  | writer action => cases ht
  | publish inputs => cases ht
  | prune fails => cases ht
  | handOver => cases ht
  | workerFinds found => cases ht
  | workerPersists => cases ht
  | returns => cases ht
  | finishExporter => cases ht
  | cancelExporter => cases ht
  | dropExporter => cases ht
  | joinExporter => cases ht

theorem ExporterInv.writing (hp : s.phase ≠ .idle) : ∃ window, s.writer.worker = .writing window :=
  h.writes.resolve_left hp

theorem ExporterInv.workerStep (hotlp : args.otlp = true) (hsettles : s.Settles args action)
    (ht : s.workerStep args keepWindows action = some t) : ExporterInv args start t := by
  cases action with
  | publish inputs =>
    unfold ExporterState.workerStep at ht
    dsimp only at ht
    split at ht
    next hp hw => exact Option.some.inj ht ▸ h.publishWindow hw hotlp hp keepWindows inputs
    next => cases ht
  | prune fails =>
    unfold ExporterState.workerStep at ht
    dsimp only at ht
    split at ht
    next hp =>
      obtain ⟨window, hw⟩ := h.writing (by rw [hp]; nofun)
      exact h.pruneFile hw hp hsettles ht
    next => cases ht
  | handOver =>
    unfold ExporterState.workerStep at ht
    dsimp only at ht
    split at ht
    next hp =>
      obtain ⟨window, hw⟩ := h.writing (by rw [hp]; nofun)
      exact Option.some.inj ht ▸ h.handOver hw hp
    next => cases ht
  | workerFinds found =>
    unfold ExporterState.workerStep at ht
    dsimp only at ht
    split at ht
    next hp =>
      obtain ⟨window, hw⟩ := h.writing (by rw [hp]; nofun)
      exact Option.some.inj ht ▸ h.workerFinds hw hp hsettles
    next => cases ht
  | workerPersists =>
    unfold ExporterState.workerStep at ht
    dsimp only at ht
    split at ht
    next hp =>
      obtain ⟨window, hw⟩ := h.writing (by rw [hp]; nofun)
      exact Option.some.inj ht ▸ h.workerPersists hw hp
    next => cases ht
  | returns =>
    unfold ExporterState.workerStep at ht
    dsimp only at ht
    split at ht
    next hp =>
      obtain ⟨moved, hmoved, rfl⟩ := Option.map_eq_some_iff.mp ht
      exact h.returns hp hmoved
    next => cases ht
  | submit collected => cases ht
  | writer action => cases ht
  | receiveJob => cases ht
  | checkStopping => cases ht
  | exports outcome => cases ht
  | exporterFinds found => cases ht
  | exporterPersists => cases ht
  | finishExporter => cases ht
  | cancelExporter => cases ht
  | dropExporter => cases ht
  | joinExporter => cases ht

theorem ExporterInv.step (hotlp : args.otlp = true) (hsettles : s.Settles args action)
    (ht : s.step args keepWindows action = some t) : ExporterInv args start t := by
  rcases Option.or_eq_some_iff.mp ht with ht | ⟨-, ht⟩
  · rcases Option.or_eq_some_iff.mp ht with ht | ⟨-, ht⟩
    · exact h.workerStep hotlp hsettles ht
    · exact h.exporterStep hsettles ht
  · exact h.recorderStep hsettles ht

/-- Once the exporter has exited nothing is on its way. -/
theorem ExporterInv.told (he : s.exporter = .exited) {path : SessionFile} {diagnostics : WindowDiagnostics}
    (hs : s.disk.lookup path = some diagnostics) : Told .waiting TellsFate s.fates path diagnostics := by
  obtain ⟨hjobs, -, reason, hexited⟩ := h.exited he
  have hp : s.phase = .idle := by
    rcases h.writes with hidle | ⟨window, hw⟩
    · exact hidle
    · rw [hexited] at hw
      cases hw
  have houtbox := h.outbox
  unfold ExporterState.outbox at houtbox
  rw [he, hjobs, hp] at houtbox
  exact houtbox.told hs

end

end

/-- **No export is left pending**, as long as the worker neither panics nor fails to remove a file while the export of
what it has published is open. In every order of the steps of the recorder, the worker and the exporter: once the
writer is gone, each diagnostics file on the disk has the status that the fate of its export calls for. -/
theorem no_export_pending {S : Type} (args : RecordArgs) (keepWindows : ℕ) (symbolizer : S) (hotlp : args.otlp = true)
    {steps : List (ExporterStep args S)} {s : ExporterState S}
    (hguard : Guarded (ExporterState.step args keepWindows) (ExporterState.Settles args) (.start args symbolizer) steps)
    (hrun : run (ExporterState.step args keepWindows) (.start args symbolizer) steps = some s) (hgone : s.Gone)
    {path : SessionFile} {diagnostics : WindowDiagnostics} (hdisk : s.disk.lookup path = some diagnostics) :
    ∃ fate, s.fates.lookup path = some fate ∧ StatusFits fate diagnostics.otlp.status := by
  have hinv := run_inv _ (fun _ _ _ hs hok ht => ExporterInv.step hs hotlp hok ht) (exporterInv_start args symbolizer)
    hguard hrun
  obtain ⟨fate, hlookup, hne, htells⟩ := hinv.told (hinv.ended hgone.2) hdisk
  have hheard : fate ≠ .exporterStopped := by
    rintro rfl
    exact hinv.heard path hlookup
  exact ⟨fate, hlookup, htells ▸ status_fits hne hheard⟩

instance {S : Type} (recorder : RecorderPhase WindowOutput S) : Decidable (recorder = .gone) :=
  match recorder with
  | .gone => isTrue rfl
  | .idle => isFalse nofun
  | .checking _ _ _ => isFalse nofun
  | .sending _ _ => isFalse nofun
  | .joining => isFalse nofun
  | .flushing => isFalse nofun
  | .dropping => isFalse nofun

instance {S : Type} (s : ExporterState S) : Decidable s.Gone := inferInstanceAs (Decidable (_ ∧ _))

def otlpArgs : RecordArgs where
  cpu := false
  otlp := true
  pid := 7
  cpuFrequency := exampleFrequency
  allocInterval := 512
  maxStacks := 4
  maxThreads := 4
  maxTimelineSamples := 4

def quietWindow (index : ℕ) : CollectedWindow otlpArgs where
  index := index
  cpuWindow := otlpArgs.freshWindow
  ingested := ⟨⟨Unit, Unit, ⟨fun world _ _ => (none, world)⟩, (), [], rfl⟩, by decide⟩
  heapProfile := none
  offCpuProfile := none
  clockAnchor := ⟨0, 0⟩
  startedUnixNanos := 0
  endedUnixNanos := 1
  cgroup := false
  target := { pid := 7 }
  executable := "/bin/app"
  warnings := []

def quietInputs : WriteInputs where
  iter := .stored
  symbolizer := { resolve := fun address => ⟨address, none, []⟩, mappingForAddress := fun _ => none }
  jitMappingCount := 0
  removes := fun _ => true
  encode := fun _ _ => .ok ⟨⟨[], [], [], [], [], [], [], []⟩, 0⟩

/-- Two windows: the export of the first succeeds, the second is shed. -/
def exportedThenShed : List (ExporterStep otlpArgs Unit) :=
  [.submit (quietWindow 0), .writer .poll, .writer .send, .writer .receive,
    .submit (quietWindow 1), .writer .poll, .writer .send,
    .publish quietInputs, .prune none, .handOver, .returns, .writer .complete,
    .receiveJob, .checkStopping, .exports ⟨1, 0, none, true⟩,
    .writer .receive, .publish quietInputs, .prune none, .handOver, .returns, .writer .complete,
    .exporterFinds true, .exporterPersists,
    .writer (.call .finish), .writer .receive, .writer .dropCommands, .writer .dropCompletions, .writer .exit,
    .writer .join, .writer .poll, .writer .poll, .writer .poll, .finishExporter, .receiveJob, .joinExporter]

theorem exportedThenShed_statuses :
    (run (ExporterState.step otlpArgs 2) (.start otlpArgs ()) exportedThenShed).any (fun s =>
      decide (s.Gone ∧ (s.disk.lookup ⟨.diagnostics, 0⟩).map (·.otlp.status) = some .exported ∧
        (s.disk.lookup ⟨.diagnostics, 1⟩).map (·.otlp.status) = some .dropped)) = true := by
  decide +kernel

theorem exportedThenShed_settles : Guarded (ExporterState.step otlpArgs 2) (ExporterState.Settles otlpArgs)
    (.start otlpArgs ()) exportedThenShed :=
  guarded_of_goesWell (by decide)

theorem no_export_pending_exportedThenShed :
    ∃ s, run (ExporterState.step otlpArgs 2) (.start otlpArgs ()) exportedThenShed = some s ∧
      ∃ first second, s.disk.lookup ⟨.diagnostics, 0⟩ = some first ∧ s.disk.lookup ⟨.diagnostics, 1⟩ = some second ∧
        first.otlp.status = .exported ∧ second.otlp.status = .dropped ∧
        (∃ fate, s.fates.lookup ⟨.diagnostics, 0⟩ = some fate ∧ StatusFits fate first.otlp.status) ∧
        ∃ fate, s.fates.lookup ⟨.diagnostics, 1⟩ = some fate ∧ StatusFits fate second.otlp.status := by
  obtain ⟨s, hrun, hs⟩ := (Option.any_eq_true _ _).mp exportedThenShed_statuses
  obtain ⟨hgone, hfirst, hsecond⟩ := of_decide_eq_true hs
  obtain ⟨first, hdisk, hexported⟩ := Option.map_eq_some_iff.mp hfirst
  obtain ⟨second, hdisk', hdropped⟩ := Option.map_eq_some_iff.mp hsecond
  exact ⟨s, hrun, first, second, hdisk, hdisk', hexported, hdropped,
    no_export_pending otlpArgs 2 () rfl exportedThenShed_settles hrun hgone hdisk,
    no_export_pending otlpArgs 2 () rfl exportedThenShed_settles hrun hgone hdisk'⟩

/-- The window's files are published, then the worker cannot print their names. -/
def publishedThenPanicked : List (ExporterStep otlpArgs Unit) :=
  [.submit (quietWindow 0), .writer .poll, .writer .send, .writer .receive, .publish quietInputs, .prune none,
    .writer .panic, .writer .dropCommands, .writer .dropCompletions, .writer .exit, .writer .drop, .writer .join,
    .cancelExporter, .dropExporter, .receiveJob, .joinExporter]

/-- The job is lost with the worker, and the file keeps the status that it was published with. -/
theorem panic_leaves_pending : ∃ s diagnostics,
    run (ExporterState.step otlpArgs 2) (.start otlpArgs ()) publishedThenPanicked = some s ∧ s.Gone ∧
      s.disk.lookup ⟨.diagnostics, 0⟩ = some diagnostics ∧ diagnostics.otlp.status = .pending := by
  have hlast : (run (ExporterState.step otlpArgs 2) (.start otlpArgs ()) publishedThenPanicked).any (fun s =>
      decide (s.Gone ∧ (s.disk.lookup ⟨.diagnostics, 0⟩).map (·.otlp.status) = some .pending)) = true := by
    decide +kernel
  obtain ⟨s, hrun, hs⟩ := (Option.any_eq_true _ _).mp hlast
  obtain ⟨hgone, hpending⟩ := of_decide_eq_true hs
  obtain ⟨diagnostics, hdisk, hstatus⟩ := Option.map_eq_some_iff.mp hpending
  exact ⟨s, diagnostics, hrun, hgone, hdisk, hstatus⟩

end Record

end RustProfile
