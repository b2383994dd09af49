import RustProfile.OffCpuRaw
import RustProfile.Recorder
import RustProfile.Lib.Reservations

/-!
# Forks, exits and execs of the target

Three tracepoints tell of every process on every CPU. Their programs pass on what
the target does through a ring, each in two steps, a reservation and a submit.
The recorder empties the ring when it comes around and is told whether there were
threads that came or went, and whether there was an exec.
-/

namespace RustProfile

open Reservations

namespace Lifecycle

/-- The programs of `lifecycle.bpf.c`. -/
inductive LifecycleProgram where
  | processFork
  | processExit
  | processExec
  deriving DecidableEq, Repr

/-- `enum lifecycle_kind`. -/
def LifecycleProgram.kind : LifecycleProgram → UInt32
  | .processFork => 1
  | .processExit => 2
  | .processExec => 3

/-! ## Loading -/

/-- The target's number is put in front of the read-only data. -/
def loadObject (pid : ℤ) (initialValue : Option (List UInt8)) : Except String (List UInt8) :=
  match initialValue with
  | none => .error "lifecycle BPF rodata has no initial value"
  | some initial =>
    if initial.length < 4 then .error "lifecycle BPF rodata is unexpectedly short"
    else .ok (Bytes.ofNat 4 (pid % 2 ^ 32).toNat ++ initial.drop 4)

/-- `target_tgid`, as the programs read it. -/
def targetTgid (rodata : List UInt8) : UInt32 := readU32 rodata 0

/-! ## The programs -/

/-- A tracepoint that a task has reached: `bpf_get_current_pid_tgid` is its number and its group's. -/
structure Hit where
  program : LifecycleProgram
  pidTgid : UInt64
  deriving DecidableEq, Repr

def Hit.tgid (hit : Hit) : UInt32 := (hit.pidTgid >>> 32).toUInt32

/-- `struct lifecycle_event`. -/
def Hit.event (hit : Hit) : List UInt8 :=
  Bytes.fields [(4, hit.program.kind.toNat), (4, hit.pidTgid.toUInt32.toNat)]

/-! ## The notifier -/

/-- What the ring's callback adds to the pending flags. -/
def flag (data : List UInt8) : UInt8 := if readU32 data 0 = 3 then 2 else 1

inductive ConsumePhase where
  | idle
  | draining
  | drained
  deriving DecidableEq, Repr

/-- What a consume has returned. The tracepoints that it has to tell of are the first `due` of those admitted. -/
structure Report where
  events : Recorder.LifecycleEvents
  due : ℕ
  deriving DecidableEq, Repr

structure LifecycleNotifier where
  ring : SlotRing (List UInt8)
  pending : UInt8 := 0
  phase : ConsumePhase := .idle
  due : ℕ := 0
  /-- The target's tracepoints, and whether the ring had room. -/
  hits : List (Hit × Bool) := []
  reports : List Report := []
  /-- There was no room since the last report of a change. -/
  missed : Bool := false

inductive LifecycleStep where
  | hit (hit : Hit)
  | submit (slot : ℕ)
  | consume
  | callback
  | consumed (ok : Bool)
  | swap

namespace LifecycleNotifier

variable (self : LifecycleNotifier)

def admitted : List Hit := (self.hits.filter Prod.snd).map Prod.fst

/-- `emit_if_target`, up to its reservation. -/
def emitIfTarget (target : UInt32) (hit : Hit) : LifecycleNotifier :=
  if hit.tgid ≠ target then self
  else
    match self.ring.reserve hit.event with
    | some ring => { self with ring := ring, hits := self.hits ++ [(hit, true)] }
    | none => { self with hits := self.hits ++ [(hit, false)], missed := true }

/-- `LifecycleEvents` of the flags. -/
def events : Recorder.LifecycleEvents where
  threadChange := self.pending &&& 1 ≠ 0
  exec := self.pending &&& 2 ≠ 0

def swap : LifecycleNotifier :=
  { self with
    pending := 0
    phase := .idle
    reports := self.reports ++ [⟨self.events, self.due⟩]
    missed := self.missed && self.pending = 0 }

/-- The programs and `consume`, which goes on until the ring has nothing to take. -/
def step (target : UInt32) : LifecycleStep → Option LifecycleNotifier
  | .hit hit => some (self.emitIfTarget target hit)
  | .submit slot =>
    if self.ring.slots[slot]?.any (!·.committed) then some { self with ring := self.ring.commit slot } else none
  | .consume =>
    if self.phase = .idle then
      some
        { self with
          phase := .draining
          due := self.admitted.length - self.ring.values.length + self.ring.ready.length }
    else none
  | .callback =>
    if self.phase = .draining then
      self.ring.take.map fun taken => { self with ring := taken.2, pending := self.pending ||| flag taken.1 }
    else none
  | .consumed ok =>
    if self.phase = .draining then
      if ok then if self.ring.take.isNone then some { self with phase := .drained } else none
      else some { self with phase := .idle }
    else none
  | .swap => if self.phase = .drained then some self.swap else none

end LifecycleNotifier

end Lifecycle

end RustProfile
