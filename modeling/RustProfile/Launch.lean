import RustProfile.Lib.Run
import RustProfile.Lib.Table

/-!
# Launching a target

`launch` spawns a shell that stops itself, moves it into a control group of its
own, records it while it becomes the command, and ends it with all that it has
started. On the error paths the values that are dropped do so.
-/

namespace RustProfile

namespace Launch

inductive ExitStatus where
  | code (code : ℕ)
  | signal (signal : ℕ)
  deriving DecidableEq, Repr

def ExitStatus.success (self : ExitStatus) : Bool := self = .code 0

inductive Child where
  | starting
  | stopped
  | running
  | exited (status : ExitStatus)
  | reaped (status : ExitStatus)
  deriving DecidableEq, Repr

def Child.alive : Child → Bool
  | .starting => true
  | .stopped => true
  | .running => true
  | _ => false

def Child.isReaped : Child → Bool
  | .reaped _ => true
  | _ => false

inductive LaunchError where
  | message (text : String)
  /-- `launched command exited with {status}` -/
  | exited (status : ExitStatus)
  deriving DecidableEq, Repr

/-- The control group, with the descendants in it and whether each is being killed. -/
structure LaunchCgroup where
  hasKill : Bool
  members : Table ℕ Bool := ∅

def LaunchCgroup.kills (self : LaunchCgroup) (listed : List ℕ) : LaunchCgroup :=
  { self with members := ⟨self.members.entries.map fun e => ⟨e.1, e.2 || e.1 ∈ listed⟩, by
      rw [List.NodupKeys, List.keys, List.map_map]
      exact self.members.nodupKeys⟩ }

/-- What follows a termination of the control group: the first one is explicit, the others are of its drop. -/
inductive After where
  | sigterm
  | finish
  | unwind (error : LaunchError)
  deriving DecidableEq, Repr

inductive Phase where
  | spawn
  | waitStopped
  | createCgroup
  | prepare
  | record
  | tryWait
  | terminate (after : After)
  | killListed (listed : List ℕ) (child : Bool) (after : After)
  | sigterm
  | wait
  | removeDir (after : After)
  | killChild (error : LaunchError)
  | waitKilled (error : LaunchError)
  | returned (result : Except LaunchError Unit)

inductive Signal where
  | term
  | kill
  deriving DecidableEq, Repr

structure LaunchState where
  phase : Phase := .spawn
  child : Option Child := none
  childKilled : Bool := false
  childTermed : Bool := false
  cgroup : Option LaunchCgroup := none
  recording : Except LaunchError Unit := .ok ()
  stoppedByProfiler : Bool := false
  /-- The signals sent to the child's PID, with what the child was then. -/
  sent : List (Signal × Child) := []
  /-- `wait_stopped` has reaped the child. -/
  endedEarly : Bool := false
  /-- All of the control group has been killed. -/
  swept : Bool := false
  /-- The control group could not be killed or read. -/
  faulty : Bool := false

inductive LaunchStep where
  | spawn (error : Option String)
  | waitStopped (error : Option String)
  /-- Whether there is a `cgroup.kill`. -/
  | createCgroup (created : Except String Bool)
  | prepare (error : Option String)
  | recordEnds (result : Except String Unit)
  | tryWait (error : Option String)
  | terminate (ok : Bool)
  | killListed
  | sigterm
  | wait
  | removeDir (removed : Bool)
  | killChild
  | waitKilled
  | childStops
  | childResumes
  | childExits (status : ExitStatus)
  | fork (id : ℕ)
  | memberExits (id : ℕ)

namespace LaunchState

variable (s : LaunchState)

def goTo (phase : Phase) : LaunchState := { s with phase := phase }

/-- An error returns early: the control group is dropped, then the child's guard. -/
def unwinds (error : LaunchError) : LaunchState :=
  s.goTo (if s.cgroup.isSome then .terminate (.unwind error) else .killChild error)

def fails (error : String) : LaunchState := s.unwinds (.message error)

def terminated (after : After) : LaunchState :=
  s.goTo (match after with
    | .sigterm => .sigterm
    | _ => .removeDir after)

def finishes (status : ExitStatus) : LaunchState :=
  s.goTo (.returned (match s.recording with
    | .error error => .error error
    | .ok _ => if !s.stoppedByProfiler && !status.success then .error (.exited status) else .ok ()))

def reaps (status : ExitStatus) : LaunchState := { s with child := some (.reaped status) }

/-- `cgroup.kill`. -/
def sweeps (cgroup : LaunchCgroup) : LaunchState :=
  { s with
    childKilled := true
    cgroup := some { cgroup with members := cgroup.members.mapValues fun _ => true }
    swept := true }

def signals (signal : Signal) : LaunchState := { s with sent := s.sent ++ (s.child.map (signal, ·)).toList }

def killsListed (cgroup : LaunchCgroup) (listed : List ℕ) (child : Bool) : LaunchState :=
  let s := if child then { s.signals .kill with childKilled := true } else s
  { s with cgroup := some (cgroup.kills listed) }

def canFork (cgroup : LaunchCgroup) : Bool :=
  (s.child = some .running && !s.childKilled) || cgroup.members.entries.any fun e => !e.2

section
variable (allowPartial : Bool)

def waitedStopped : Option LaunchState :=
  match s.child with
  | some .stopped => some (s.goTo .createCgroup)
  | some (.exited status) =>
    some ({ s.reaps status with endedEarly := true }.fails "launch target did not stop before exec")
  | _ => none

/-- `try_wait` reaps a child that has exited. -/
def triedWait : LaunchState :=
  let next := if s.cgroup.isSome then .terminate .sigterm else .sigterm
  match s.child with
  | some (.exited status) => { s.reaps status with phase := next, stoppedByProfiler := false }
  | _ => { s with phase := next, stoppedByProfiler := true }

def waited : Option LaunchState :=
  match s.child with
  | some (.exited status) | some (.reaped status) =>
    some (if s.cgroup.isSome then (s.reaps status).goTo (.terminate .finish) else (s.reaps status).finishes status)
  | _ => none

def waitedKilled (error : LaunchError) : Option LaunchState :=
  match s.child with
  | some (.exited status) | some (.reaped status) => some ((s.reaps status).goTo (.returned (.error error)))
  | _ => none

/-- A directory with live members cannot be removed. -/
def occupied : Bool := s.cgroup.any (·.members.size ≠ 0) || s.child.any Child.alive

def removes (after : After) (removed : Bool) : Option LaunchState :=
  let s := if removed then { s with cgroup := none } else s
  match after, s.child with
  | .finish, some (.reaped status) => some (s.finishes status)
  | .unwind error, _ => some (s.goTo (.killChild error))
  | _, _ => none

/-- `LaunchCgroup::terminate`. -/
def terminates (after : After) (ok : Bool) (cgroup : LaunchCgroup) : LaunchState :=
  if cgroup.hasKill then
    if ok then (s.sweeps cgroup).terminated after else { s with faulty := true }.terminated after
  else if ok then s.goTo (.killListed cgroup.members.keys (s.child.any Child.alive) after)
  else { s with faulty := true }.terminated after

def step (step : LaunchStep) : Option LaunchState :=
  match step with
  | .spawn error =>
    match s.phase, error with
    | .spawn, none => some { s with phase := .waitStopped, child := some .starting }
    | .spawn, some error => some (s.goTo (.returned (.error (.message error))))
    | _, _ => none
  | .waitStopped error =>
    match s.phase, error with
    | .waitStopped, none => s.waitedStopped
    | .waitStopped, some error => some (s.fails error)
    | _, _ => none
  | .createCgroup created =>
    match s.phase, created with
    | .createCgroup, .ok hasKill => some { s with phase := .prepare, cgroup := some { hasKill := hasKill } }
    -- a target without a control group is recorded only with `--allow-partial`
    | .createCgroup, .error error => some (if allowPartial then s.goTo .prepare else s.fails error)
    | _, _ => none
  | .prepare error =>
    match s.phase, error with
    | .prepare, none => some (s.goTo .record)
    | .prepare, some error => some (s.fails error)
    | _, _ => none
  | .recordEnds result =>
    match s.phase with
    -- the error of the recording is kept until the target has ended
    | .record => some { s with phase := .tryWait, recording := result.mapError .message }
    | _ => none
  | .tryWait error =>
    match s.phase, error with
    | .tryWait, none => some s.triedWait
    | .tryWait, some error => some (s.fails error)
    | _, _ => none
  | .terminate ok =>
    match s.phase with
    | .terminate after => s.cgroup.map fun cgroup => s.terminates after ok cgroup
    | _ => none
  | .killListed =>
    match s.phase with
    | .killListed listed child after =>
      s.cgroup.map fun cgroup => (s.killsListed cgroup listed child).terminated after
    | _ => none
  | .sigterm =>
    match s.phase with
    | .sigterm =>
      some (if s.stoppedByProfiler then { s.signals .term with phase := .wait, childTermed := true } else s.goTo .wait)
    | _ => none
  | .wait =>
    match s.phase with
    | .wait => s.waited
    | _ => none
  | .removeDir removed =>
    match s.phase with
    -- the kernel does not remove a group with a live member
    | .removeDir after => if removed && s.occupied then none else s.removes after removed
    | _ => none
  | .killChild =>
    match s.phase with
    | .killChild error => some { s.signals .kill with phase := .waitKilled error, childKilled := true }
    | _ => none
  | .waitKilled =>
    match s.phase with
    | .waitKilled error => s.waitedKilled error
    | _ => none
  | .childStops => if s.child = some .starting then some { s with child := some .stopped } else none
  | .childResumes => if s.child = some .stopped then some { s with child := some .running } else none
  | .childExits status => if s.child.any Child.alive then some { s with child := some (.exited status) } else none
  | .fork id =>
    s.cgroup.bind fun cgroup =>
      -- `cgroup.kill` reaches every member, so only one that is not being killed forks
      if s.canFork cgroup ∧ id ∉ cgroup.members then
        some { s with cgroup := some { cgroup with members := cgroup.members.insert id false } }
      else none
  | .memberExits id =>
    s.cgroup.map fun cgroup => { s with cgroup := some { cgroup with members := cgroup.members.erase id } }

end

end LaunchState

end Launch

end RustProfile
