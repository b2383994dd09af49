import RustProfile.Lib.Channel

/-!
# The recorder and the output worker

The recorder hands windows and symbolizers to the worker over a channel of one
command, and learns the result of each write over a second, unbounded one. The
two threads take their steps in any order; each receive from a channel is a step
of its own. What `submit` does with a window when others are pending is `shed`.
-/

namespace RustProfile

open Channels

variable {W S : Type}

inductive WriterCommand (W S : Type) where
  | window (window : W)
  | replaceSymbolizer (symbolizer : S)

/-- How much a command adds to the pending windows. -/
def WriterCommand.windows : WriterCommand W S → ℕ
  | .window _ => 1
  | .replaceSymbolizer _ => 0

/-- What the recorder calls. -/
inductive WriterCall (W S : Type) where
  | submit (window : W)
  | replaceSymbolizer (symbolizer : S)
  | checkCompleted
  | finish

def WriterCall.map {V : Type} (f : V → W) : WriterCall V S → WriterCall W S
  | .submit window => .submit (f window)
  | .replaceSymbolizer symbolizer => .replaceSymbolizer symbolizer
  | .checkCompleted => .checkCompleted
  | .finish => .finish

/-- Why the worker's loop ended: there are no more commands, or nobody to hear of the results. -/
inductive WorkerEnd where
  | closed
  | unheard
  | panicked
  deriving DecidableEq

/-- Where the worker is. When its loop has ended it drops its two channel ends and exits. -/
inductive OutputWorker (W : Type) where
  | receiving
  | writing (window : W)
  | completing (result : Except String Unit)
  | stopping (reason : WorkerEnd)
  | exited (reason : WorkerEnd)

/-- Where the recorder is. A call that checks keeps the first error and, in `finish`, whether the worker panicked. -/
inductive RecorderPhase (W S : Type) where
  | idle
  | checking (call : WriterCall W S) (panicked : Bool) (firstError : Option String)
  | sending (call : WriterCall W S) (command : WriterCommand W S)
  | joining
  | flushing
  | dropping
  | gone

/-- What has happened so far. Nothing in the program reads it. -/
structure WriterHistory (W S : Type) where
  sent : List (WriterCommand W S) := []
  taken : List (WriterCommand W S) := []
  written : List (W × S × Except String Unit) := []
  completed : List (Except String Unit) := []
  received : List (Except String Unit) := []
  returned : List (WriterCall W S × Except String Unit) := []

/-- The recorder's writer and the worker's symbolizer, with the channels between them. -/
structure WriterState (W S : Type) where
  commands : Channel (WriterCommand W S)
  completions : Channel (Except String Unit)
  pending : ℕ
  exporter : Bool
  recorder : RecorderPhase W S
  worker : OutputWorker W
  symbolizer : S
  history : WriterHistory W S

/-- A step of either thread, with the result of what is not modelled. -/
inductive WriterStep (W S : Type) where
  | call (call : WriterCall W S)
  | poll
  | send
  | join
  | flush (result : Except String Unit)
  | drop
  | receive
  | write (result : Except String Unit)
  | complete
  | panic
  | dropCommands
  | dropCompletions
  | exit

namespace WriterState

/-- The state of `OutputWriter::start`. -/
def start (symbolizer : S) (exporter : Bool) : WriterState W S where
  commands := { capacity := some 1 }
  completions := { capacity := none }
  pending := 0
  exporter := exporter
  recorder := .idle
  worker := .receiving
  symbolizer := symbolizer
  history := {}

section
variable (shed : W → ℕ → W) (self : WriterState W S)

/-! ## The recorder -/

def returns (call : WriterCall W S) (result : Except String Unit) : WriterState W S :=
  { self with
    recorder := .idle
    history := { self.history with returned := self.history.returned ++ [(call, result)] } }

/-- `finish` returns, and the writer is dropped. -/
def closes (result : Except String Unit) : WriterState W S :=
  { self with
    completions := self.completions.dropReceiver
    recorder := .gone
    history := { self.history with returned := self.history.returned ++ [(.finish, result)] } }

def stoppedPending : String := "profile output worker stopped with " ++ toString self.pending ++ " window(s) pending"

/-- `finish` closes the commands and joins the worker before it checks. -/
def startCall : WriterCall W S → WriterState W S
  | .finish => { self with commands := self.commands.dropSender, recorder := .joining }
  | call => { self with recorder := .checking call false none }

/-- The check has found an error. -/
def fails (error : String) : WriterCall W S → WriterState W S
  | .finish => self.closes (.error error)
  | call => self.returns call (.error error)

/-- The rest of `finish` after its check. -/
def finishChecked (panicked : Bool) : WriterState W S :=
  if panicked then self.closes (.error "profile output worker panicked")
  else if self.pending ≠ 0 then self.closes (.error self.stoppedPending)
  else if self.exporter then { self with recorder := .flushing }
  else self.closes (.ok ())

/-- What the call does after its check. -/
def checked (call : WriterCall W S) (panicked : Bool) : Option String → WriterState W S
  | some error => self.fails error call
  | none =>
    match call with
    | .submit window =>
      let window := if self.pending ≠ 0 then shed window self.pending else window
      { self with recorder := .sending call (.window window) }
    | .replaceSymbolizer symbolizer => { self with recorder := .sending call (.replaceSymbolizer symbolizer) }
    | .checkCompleted => self.returns call (.ok ())
    | .finish => self.finishChecked panicked

def errorOf : Except String Unit → Option String
  | .ok _ => none
  | .error error => some error

/-- One turn of the loop in `check_completed`. -/
def poll (call : WriterCall W S) (panicked : Bool) (firstError : Option String) : WriterState W S :=
  match self.completions.tryRecv with
  | .received result completions =>
    { self with
      completions := completions
      pending := self.pending - 1
      recorder := .checking call panicked (firstError.or (errorOf result))
      history := { self.history with received := self.history.received ++ [result] } }
  | .empty => self.checked shed call panicked firstError
  | .disconnected =>
    self.checked shed call panicked
      (if self.pending ≠ 0 ∧ firstError = none then some self.stoppedPending else firstError)

/-- A send waits as long as the channel is full. -/
def send (call : WriterCall W S) (command : WriterCommand W S) : Option (WriterState W S) :=
  if self.commands.sender = false then some (self.returns call (.error "profile output worker is already closed"))
  else match self.commands.trySend command with
  | .sent commands =>
    some ({ self with
      commands := commands
      pending := self.pending + command.windows
      history := { self.history with sent := self.history.sent ++ [command] } }.returns call (.ok ()))
  | .full => none
  | .disconnected => some (self.returns call (.error "profile output worker stopped unexpectedly"))

def recorderStep : WriterStep W S → Option (WriterState W S)
  | .call call =>
    match self.recorder with
    | .idle => some (self.startCall call)
    | _ => none
  | .poll =>
    match self.recorder with
    | .checking call panicked firstError => some (self.poll shed call panicked firstError)
    | _ => none
  | .send =>
    match self.recorder with
    | .sending call command => self.send call command
    | _ => none
  | .join =>
    match self.recorder, self.worker with
    | .joining, .exited reason => some { self with recorder := .checking .finish (reason = .panicked) none }
    | .dropping, .exited _ => some { self with completions := self.completions.dropReceiver, recorder := .gone }
    | _, _ => none
  | .flush result =>
    match self.recorder with
    | .flushing => some (self.closes result)
    | _ => none
  | .drop =>
    match self.recorder with
    | .idle => some { self with commands := self.commands.dropSender, recorder := .dropping }
    | _ => none
  | _ => none

/-! ## The worker -/

def receive : Option (WriterState W S) :=
  match self.commands.tryRecv with
  | .received (.window window) commands =>
    some { self with
      commands := commands
      worker := .writing window
      history := { self.history with taken := self.history.taken ++ [.window window] } }
  | .received (.replaceSymbolizer symbolizer) commands =>
    some { self with
      commands := commands
      symbolizer := symbolizer
      history := { self.history with taken := self.history.taken ++ [.replaceSymbolizer symbolizer] } }
  | .empty => none
  | .disconnected => some { self with worker := .stopping .closed }

def write (window : W) (result : Except String Unit) : WriterState W S :=
  { self with
    worker := .completing result
    history := { self.history with written := self.history.written ++ [(window, self.symbolizer, result)] } }

def complete (result : Except String Unit) : Option (WriterState W S) :=
  match self.completions.trySend result with
  | .sent completions =>
    some { self with
      completions := completions
      worker := .receiving
      history := { self.history with completed := self.history.completed ++ [result] } }
  | .full => none
  | .disconnected => some { self with worker := .stopping .unheard }

/-- A panic can happen anywhere in the loop. -/
def workerStep : WriterStep W S → Option (WriterState W S)
  | .receive =>
    match self.worker with
    | .receiving => self.receive
    | _ => none
  | .write result =>
    match self.worker with
    | .writing window => some (self.write window result)
    | _ => none
  | .complete =>
    match self.worker with
    | .completing result => self.complete result
    | _ => none
  | .panic =>
    match self.worker with
    -- A panic unwinds like a return: the channel ends are dropped, the command at hand is lost.
    | .receiving | .writing _ | .completing _ => some { self with worker := .stopping .panicked }
    | _ => none
  | .dropCommands =>
    match self.worker with
    | .stopping _ => some { self with commands := self.commands.dropReceiver }
    | _ => none
  | .dropCompletions =>
    match self.worker with
    | .stopping _ => some { self with completions := self.completions.dropSender }
    | _ => none
  | .exit =>
    match self.worker with
    | .stopping reason =>
      if self.commands.receiver = false ∧ self.completions.sender = false then
        some { self with worker := .exited reason }
      else none
    | _ => none
  | _ => none

def step (action : WriterStep W S) : Option (WriterState W S) :=
  (self.recorderStep shed action).or (self.workerStep action)

end

/-! ## What a step does -/

/-- The steps of the recorder, each with the phase that it is taken in. -/
inductive RecorderMoves (shed : W → ℕ → W) (s : WriterState W S) : WriterStep W S → WriterState W S → Prop where
  | call (call : WriterCall W S) (phase : s.recorder = .idle) : RecorderMoves shed s (.call call) (s.startCall call)
  | poll {call : WriterCall W S} {panicked : Bool} {firstError : Option String}
      (phase : s.recorder = .checking call panicked firstError) :
      RecorderMoves shed s .poll (s.poll shed call panicked firstError)
  | send {call : WriterCall W S} {command : WriterCommand W S} {t : WriterState W S}
      (phase : s.recorder = .sending call command) (sent : s.send call command = some t) : RecorderMoves shed s .send t
  | join {reason : WorkerEnd} (phase : s.recorder = .joining) (exited : s.worker = .exited reason) :
      RecorderMoves shed s .join { s with recorder := .checking .finish (reason = .panicked) none }
  | dropped {reason : WorkerEnd} (phase : s.recorder = .dropping) (exited : s.worker = .exited reason) :
      RecorderMoves shed s .join { s with completions := s.completions.dropReceiver, recorder := .gone }
  | flush (result : Except String Unit) (phase : s.recorder = .flushing) :
      RecorderMoves shed s (.flush result) (s.closes result)
  | drop (phase : s.recorder = .idle) :
      RecorderMoves shed s .drop { s with commands := s.commands.dropSender, recorder := .dropping }

/-- The steps of the worker. -/
inductive WorkerMoves (s : WriterState W S) : WriterStep W S → WriterState W S → Prop where
  | receive {t : WriterState W S} (phase : s.worker = .receiving) (received : s.receive = some t) :
      WorkerMoves s .receive t
  | write {window : W} (result : Except String Unit) (phase : s.worker = .writing window) :
      WorkerMoves s (.write result) (s.write window result)
  | complete {result : Except String Unit} {t : WriterState W S} (phase : s.worker = .completing result)
      (completed : s.complete result = some t) : WorkerMoves s .complete t
  | panic (running : ∀ reason, s.worker ≠ .stopping reason ∧ s.worker ≠ .exited reason) :
      WorkerMoves s .panic { s with worker := .stopping .panicked }
  | dropCommands {reason : WorkerEnd} (phase : s.worker = .stopping reason) :
      WorkerMoves s .dropCommands { s with commands := s.commands.dropReceiver }
  | dropCompletions {reason : WorkerEnd} (phase : s.worker = .stopping reason) :
      WorkerMoves s .dropCompletions { s with completions := s.completions.dropSender }
  | exit {reason : WorkerEnd} (phase : s.worker = .stopping reason) :
      WorkerMoves s .exit { s with worker := .exited reason }

variable {shed : W → ℕ → W} {s t : WriterState W S} {action : WriterStep W S}

theorem recorderStep_moves (h : s.recorderStep shed action = some t) : RecorderMoves shed s action t := by
  unfold recorderStep at h
  split at h
  · split at h
    next hr => exact Option.some.inj h ▸ .call _ hr
    next => cases h
  · split at h
    next hr => exact Option.some.inj h ▸ .poll hr
    next => cases h
  · split at h
    next hr => exact .send hr h
    next => cases h
  · split at h
    next hr hw => exact Option.some.inj h ▸ .join hr hw
    next hr hw => exact Option.some.inj h ▸ .dropped hr hw
    next => cases h
  · split at h
    next hr => exact Option.some.inj h ▸ .flush _ hr
    next => cases h
  · split at h
    next hr => exact Option.some.inj h ▸ .drop hr
    next => cases h
  · cases h

theorem workerStep_moves (h : s.workerStep action = some t) : WorkerMoves s action t := by
  unfold workerStep at h
  split at h
  · split at h
    next hw => exact .receive hw h
    next => cases h
  · split at h
    next hw => exact Option.some.inj h ▸ .write _ hw
    next => cases h
  · split at h
    next hw => exact .complete hw h
    next => cases h
  · split at h
    next hw => exact Option.some.inj h ▸ .panic fun _ => by rw [hw]; exact ⟨nofun, nofun⟩
    next hw => exact Option.some.inj h ▸ .panic fun _ => by rw [hw]; exact ⟨nofun, nofun⟩
    next hw => exact Option.some.inj h ▸ .panic fun _ => by rw [hw]; exact ⟨nofun, nofun⟩
    next => cases h
  · split at h
    next hw => exact Option.some.inj h ▸ .dropCommands hw
    next => cases h
  · split at h
    next hw => exact Option.some.inj h ▸ .dropCompletions hw
    next => cases h
  · split at h
    next hw =>
      split at h
      next => exact Option.some.inj h ▸ .exit hw
      next => cases h
    next => cases h
  · cases h

end WriterState

end RustProfile
