import RustProfile.Output

/-!
# The output worker and the exporter

Two threads over the session's files, when every write and removal succeeds. The
worker writes a window, prunes the oldest ones and submits the export job; the
exporter takes jobs from a bounded queue, and after an export tests whether the
job's diagnostics file still exists before it writes it again.
-/

namespace RustProfile

/-- Where the worker is in its loop. -/
inductive WorkerPhase where
  | idle
  | publishing (window : WindowOutput) (encodes : Bool) (left : List Publication)
  | pruning (job : Option ExportJob) (left : List SessionFile)
  | submitting (job : Option ExportJob)
  | persisting (job : ExportJob)

inductive ExporterPhase where
  | idle
  | exporting (job : ExportJob)
  | persisting (job : ExportJob)

/-- The state of the two threads; `written` lists the outputs of every window
that has been retained so far. -/
structure RetentionState where
  disk : Disk
  retained : List (List SessionFile)
  queue : List ExportJob
  worker : WorkerPhase
  exporter : ExporterPhase
  written : List (List SessionFile)

inductive RetentionStep where
  | receive (args : OutputArgs) (pending : ℕ) (encodes : Bool)
  | worker
  | exporter

def exportQueueCapacity : ℕ := 4

namespace RetentionState

def start : RetentionState where
  disk := ∅
  retained := []
  queue := []
  worker := .idle
  exporter := .idle
  written := []

section
variable (self : RetentionState) (keepWindows : ℕ)

/-- The next thing the worker does after it has received a window. -/
def workerStep : Option RetentionState :=
  match self.worker with
  | .idle => none
  | .publishing window encodes (.file path :: left) =>
    some { self with disk := insert path self.disk, worker := .publishing window encodes left }
  | .publishing window encodes (.timeline :: left) => some { self with worker := .publishing window encodes left }
  -- all files are there: the window is retained before older ones are removed
  | .publishing window encodes [] =>
    some { self with
      retained := self.retained ++ [window.outputs]
      written := self.written ++ [window.outputs]
      worker := .pruning (window.job encodes) [] }
  | .pruning job (path :: left) => some { self with disk := self.disk.erase path, worker := .pruning job left }
  | .pruning job [] =>
    match self.retained with
    | outputs :: retained =>
      if self.retained.length > keepWindows then
        some { self with retained := retained, worker := .pruning job outputs }
      else some { self with worker := .submitting job }
    | [] => some { self with worker := .submitting job }
  | .submitting none => some { self with worker := .idle }
  | .submitting (some job) =>
    if self.queue.length < exportQueueCapacity then
      some { self with queue := self.queue ++ [job], worker := .idle }
    -- the queue is full: the drop is written, unless the file has been pruned
    else if job.diagnosticsPath ∈ self.disk then some { self with worker := .persisting job }
    else some { self with worker := .idle }
  | .persisting job => some { self with disk := insert job.diagnosticsPath self.disk, worker := .idle }

/-- The next thing the exporter does. -/
def exporterStep : Option RetentionState :=
  match self.exporter with
  | .idle =>
    match self.queue with
    | job :: queue => some { self with queue := queue, exporter := .exporting job }
    | [] => none
  | .exporting job =>
    if job.diagnosticsPath ∈ self.disk then some { self with exporter := .persisting job }
    else some { self with exporter := .idle }
  | .persisting job => some { self with disk := insert job.diagnosticsPath self.disk, exporter := .idle }

/-- Windows are numbered in the order the worker receives them. -/
def step : RetentionStep → Option RetentionState
  | .receive args pending encodes =>
    match self.worker with
    | .idle =>
      let window := WindowOutput.submit args self.written.length pending
      some { self with worker := .publishing window encodes window.publications }
    | _ => none
  | .worker => self.workerStep keepWindows
  | .exporter => self.exporterStep

end

end RetentionState

end RustProfile
