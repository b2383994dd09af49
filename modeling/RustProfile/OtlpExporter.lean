import RustProfile.OutputWriter
import RustProfile.Record

/-!
# The exporter

The output worker hands the export job of each window it has written to the
exporter thread over a queue of four. The job carries the window's diagnostics;
whoever settles the export writes them again if their file still exists. Writing
a file succeeds; removals, looking for a file and the worker's printing may fail.
-/

namespace RustProfile

namespace Record

open Channels

structure ExportOutcome where
  attempts : ℕ
  rejectedProfiles : ℤ
  error : Option String
  delivered : Bool
  deriving DecidableEq, Repr

/-- What became of the export of a window. Nothing in the program reads it. -/
inductive ExportFate where
  | waiting
  | shed
  | encodingFailed
  | queueFull
  | exporterStopped
  | cancelled
  | responded (outcome : ExportOutcome)
  deriving DecidableEq, Repr

/-- Where the worker is in the write of its window. A file that is about to be written again was just found to exist. -/
inductive WritePhase where
  | idle
  | pruning (outputs : List SessionFile) (job : Option ExportJob) (left : List SessionFile)
  | handing (job : Option ExportJob)
  | settled (job : ExportJob)
  | persisting (job : ExportJob)
  | returning (result : Except String Unit)

inductive ExporterThread where
  | receiving
  | received (job : ExportJob)
  | exporting (job : ExportJob)
  | settled (job : ExportJob)
  | persisting (job : ExportJob)
  | exited

inductive ExporterEnd where
  | attached
  | stopped
  | finishing
  | cancelling
  | ended
  deriving DecidableEq, Repr

def exportCapacity : ℕ := 4

/-- The three threads; `disk` holds the diagnostics files and `fates` what became of each export. -/
structure ExporterState (S : Type) where
  writer : WriterState WindowOutput S
  nextIndex : ℕ
  phase : WritePhase
  disk : Table SessionFile WindowDiagnostics
  retained : List (List SessionFile)
  jobs : List ExportJob
  recorderSender : Bool
  stopping : Bool
  exporter : ExporterThread
  ending : ExporterEnd
  fates : Table SessionFile ExportFate

/-- What a write is given besides its window; `removes` are the files that a rollback can remove. -/
structure WriteInputs where
  iter : IterOrder
  symbolizer : FirefoxSymbolizer
  jitMappingCount : ℕ
  removes : SessionFile → Bool
  encode : List Profile → Option (Profile × List ℕ) → Except String Otlp.ExportPayload

def WriteInputs.context (self : WriteInputs) (args : RecordArgs) (keepWindows : ℕ) : WriteContext where
  iter := self.iter
  symbolizer := self.symbolizer
  jitMappingCount := self.jitMappingCount
  otlp := args.otlp
  keepWindows := keepWindows
  encode := self.encode

/-- A step of one of the threads, with the result of what is not modelled. A removal that
fails comes with the files that the rollback after it can remove, and `found` is what `exists`
answers for a file that is there. -/
inductive ExporterStep (args : RecordArgs) (S : Type) where
  | submit (collected : CollectedWindow args)
  | writer (action : WriterStep WindowOutput S)
  | publish (inputs : WriteInputs)
  | prune (fails : Option (SessionFile → Bool))
  | handOver
  | workerFinds (found : Bool)
  | workerPersists
  | returns
  | receiveJob
  | checkStopping
  | exports (outcome : ExportOutcome)
  | exporterFinds (found : Bool)
  | exporterPersists
  | finishExporter
  | cancelExporter
  | dropExporter
  | joinExporter

/-- The job with its export's status and error. -/
def ExportJob.settle (self : ExportJob) (status : OtlpExportStatus) (error : Option String) : ExportJob :=
  { self with
    diagnostics := { self.diagnostics with otlp := { self.diagnostics.otlp with status := status, error := error } } }

def ExportOutcome.status (self : ExportOutcome) : OtlpExportStatus :=
  if self.delivered = false then .failed
  else if self.rejectedProfiles ≠ 0 ∨ self.error.isSome then .partlyExported
  else .exported

/-- The job with what the export returned. -/
def ExportJob.respond (self : ExportJob) (outcome : ExportOutcome) : ExportJob :=
  { self with
    diagnostics := { self.diagnostics with
      otlp := { self.diagnostics.otlp with
        attempts := outcome.attempts
        rejectedProfiles := outcome.rejectedProfiles
        error := outcome.error
        status := outcome.status } } }

namespace ExporterState

variable {S : Type}

/-- The state of `OutputWriter::start`. -/
def start (args : RecordArgs) (symbolizer : S) : ExporterState S where
  writer := .start symbolizer args.otlp
  nextIndex := 0
  phase := .idle
  disk := ∅
  retained := []
  jobs := []
  recorderSender := true
  stopping := false
  exporter := .receiving
  ending := .attached
  fates := ∅

section
variable (args : RecordArgs) (keepWindows : ℕ) (self : ExporterState S)

/-- The queue of jobs: the recorder and the worker each hold a sender until they end. -/
def channel : Channel ExportJob where
  capacity := some exportCapacity
  queue := self.jobs
  sender := self.recorderSender || (match self.writer.worker with | .exited _ => false | _ => true)
  receiver := match self.exporter with | .exited => false | _ => true

def settles (path : SessionFile) (fate : ExportFate) : ExporterState S :=
  { self with fates := self.fates.insert path fate }

/-! ## The worker -/

/-- `rollback_incomplete_window`. -/
def rollback (outputs : List SessionFile) (removes : SessionFile → Bool) (error : String) : ExporterState S :=
  { self with
    disk := outputs.foldl (fun disk path => if removes path then disk.erase path else disk) self.disk
    phase := .returning (.error error) }

/-- The fate of an export when its window is published. -/
def publishedFate (window : WindowOutput) (context : WriteContext) : ExportFate :=
  if window.exportOtlp = false then .shed
  else match window.payload context with
  | some (.error _) => .encodingFailed
  | some (.ok _) => .waiting
  | none => .waiting

def publishWindow (window : WindowOutput) (inputs : WriteInputs) : ExporterState S :=
  let context := inputs.context args keepWindows
  if window.wantsTimeline context ∧ window.timelineProfile context = none then
    self.rollback window.diagnostics.outputs inputs.removes "timeline profile"
  else
    { self.settles window.diagnosticsPath (publishedFate window context) with
      disk := self.disk.insert window.diagnosticsPath (window.writtenDiagnostics context)
      retained := self.retained ++ [window.diagnostics.outputs]
      phase := .pruning window.diagnostics.outputs (window.job context) [] }

/-- Remove the next file of the windows beyond `keep_windows`. -/
def pruneFile (outputs : List SessionFile) (job : Option ExportJob) :
    List SessionFile → Option (SessionFile → Bool) → Option (ExporterState S)
  | path :: left, none => some { self with disk := self.disk.erase path, phase := .pruning outputs job left }
  | _ :: _, some removes => some (self.rollback outputs removes "failed to remove expired window")
  | [], none =>
    match self.retained with
    | expired :: retained =>
      if self.retained.length > keepWindows then
        some { self with retained := retained, phase := .pruning outputs job expired }
      else some { self with phase := .handing job }
    | [] => some { self with phase := .handing job }
  | [], some _ => none

/-- `submit_export`. -/
def handOver : Option ExportJob → ExporterState S
  | none => { self with phase := .returning (.ok ()) }
  | some job =>
    match self.channel.trySend job with
    | .sent channel => { self with jobs := channel.queue, phase := .returning (.ok ()) }
    | .full =>
      { self.settles job.diagnosticsPath .queueFull with
        phase := .settled (job.settle .dropped (some "OTLP export queue is full")) }
    | .disconnected =>
      { self.settles job.diagnosticsPath .exporterStopped with
        phase := .settled (job.settle .failed (some "OTLP exporter stopped")) }

/-! ## The exporter -/

def receiveJob : Option (ExporterState S) :=
  match self.channel.tryRecv with
  | .received job channel => some { self with jobs := channel.queue, exporter := .received job }
  | .empty => none
  | .disconnected => some { self with exporter := .exited }

def checkStopping (job : ExportJob) : ExporterState S :=
  if self.stopping then
    { self.settles job.diagnosticsPath .cancelled with
      exporter := .settled (job.settle .failed (some "OTLP export was not flushed before shutdown")) }
  else { self with exporter := .exporting job }

def responds (job : ExportJob) (outcome : ExportOutcome) : ExporterState S :=
  { self.settles job.diagnosticsPath (.responded outcome) with exporter := .settled (job.respond outcome) }

/-! ## The recorder -/

/-- The writer's steps that the other steps do not take for it. -/
def ownStep : WriterStep WindowOutput S → Bool
  | .call (.submit _) => false
  | .write _ => false
  | .flush _ => false
  | .panic => false
  | _ => true

def shedOutput (window : WindowOutput) (pendingWindows : ℕ) : WindowOutput := window.shedDerivedOutputs pendingWindows

def moveWriter (action : WriterStep WindowOutput S) : Option (ExporterState S) :=
  (self.writer.step shedOutput action).map fun writer => { self with writer := writer }

def workerStep : ExporterStep args S → Option (ExporterState S)
  | .publish inputs =>
    match self.phase, self.writer.worker with
    | .idle, .writing window => some (self.publishWindow args keepWindows window inputs)
    | _, _ => none
  | .prune fails =>
    match self.phase with
    | .pruning outputs job left => self.pruneFile keepWindows outputs job left fails
    | _ => none
  | .handOver =>
    match self.phase with
    | .handing job => some (self.handOver job)
    | _ => none
  | .workerFinds found =>
    match self.phase with
    | .settled job =>
      some { self with
        -- `exists()` is false also where the file cannot be asked for
        phase := if found = true ∧ job.diagnosticsPath ∈ self.disk then .persisting job else .returning (.ok ()) }
    | _ => none
  | .workerPersists =>
    match self.phase with
    | .persisting job =>
      some { self with
        disk := self.disk.insert job.diagnosticsPath job.diagnostics
        phase := .returning (.ok ()) }
    | _ => none
  | .returns =>
    match self.phase with
    | .returning result => (self.moveWriter (.write result)).map fun moved => { moved with phase := .idle }
    | _ => none
  | _ => none

def exporterStep : ExporterStep args S → Option (ExporterState S)
  | .receiveJob =>
    match self.exporter with
    | .receiving => self.receiveJob
    | _ => none
  | .checkStopping =>
    match self.exporter with
    | .received job => some (self.checkStopping job)
    | _ => none
  | .exports outcome =>
    match self.exporter with
    | .exporting job => some (self.responds job outcome)
    | _ => none
  | .exporterFinds found =>
    match self.exporter with
    | .settled job =>
      some { self with
        exporter := if found = true ∧ job.diagnosticsPath ∈ self.disk then .persisting job else .receiving }
    | _ => none
  | .exporterPersists =>
    match self.exporter with
    | .persisting job =>
      some { self with disk := self.disk.insert job.diagnosticsPath job.diagnostics, exporter := .receiving }
    | _ => none
  | _ => none

/-- `finish` of the exporter after a `finish` that went well, `cancel` when the writer is dropped. -/
def recorderStep : ExporterStep args S → Option (ExporterState S)
  | .submit collected =>
    if collected.index = self.nextIndex then
      (self.moveWriter (.call (.submit (recordWindow args collected)))).map fun moved =>
        { moved with nextIndex := self.nextIndex + 1 }
    else none
  -- `println!` panics when the standard output is closed; the write stays as far as it is
  | .writer .panic => (self.moveWriter .panic).map fun moved => { moved with phase := .idle }
  | .writer action => if ownStep action then self.moveWriter action else none
  | .finishExporter =>
    match self.ending, self.writer.recorder with
    | .attached, .flushing => some { self with recorderSender := false, ending := .finishing }
    | _, _ => none
  | .cancelExporter =>
    match self.ending, self.writer.recorder with
    -- an early drop: what is still queued is not sent
    | .attached, .gone => some { self with stopping := true, ending := .stopped }
    | _, _ => none
  | .dropExporter =>
    match self.ending with
    | .stopped => some { self with recorderSender := false, ending := .cancelling }
    | _ => none
  | .joinExporter =>
    match self.exporter, self.ending with
    | .exited, .finishing => (self.moveWriter (.flush (.ok ()))).map fun moved => { moved with ending := .ended }
    | .exited, .cancelling => some { self with ending := .ended }
    | _, _ => none
  | _ => none

def step (action : ExporterStep args S) : Option (ExporterState S) :=
  ((self.workerStep args keepWindows action).or (self.exporterStep args action)).or (self.recorderStep args action)

end

end ExporterState

end Record

end RustProfile
