import RustProfile.FileNames
import RustProfile.Lib.Durable
import RustProfile.Lib.Run
import RustProfile.Lib.Table

/-!
# Publishing a file

`atomic_write` writes a temporary file in the directory, syncs it, renames it to
its path and syncs the directory. Several threads do so at a time: the output
worker writes windows and removes old ones while the exporter rewrites
diagnostics. The machine may crash after any step.
-/

namespace RustProfile

namespace AtomicWrite

open Durable Run

/-- The names that `NamedTempFile` chooses. -/
def IsTemporary (name : String) : Prop := ".tmp".toList <+: name.toList

instance (name : String) : Decidable (IsTemporary name) := inferInstanceAs (Decidable (_ <+: _))

inductive WriterPhase where
  | writing
  | synced
  | renamed
  deriving DecidableEq, Repr

/-- A call of `atomic_write`, with the pieces that its closure has still to write. -/
structure Writer where
  path : String
  temporary : String
  file : ℕ
  pieces : List (List UInt8)
  phase : WriterPhase
  /-- All that the closure writes. -/
  whole : List UInt8
  deriving DecidableEq, Repr

inductive DirectorySync where
  | ok
  | unsupported
  | failed
  deriving DecidableEq, Repr

structure OutputDirectory where
  files : Files String (List UInt8)
  writers : Table ℕ Writer := ∅
  /-- The calls that have returned, with what they wrote. -/
  returned : List (Writer × WriteOutcome) := []
  /-- What was to be written to each path. -/
  offered : List (String × List UInt8) := []

inductive WriteStep where
  | start (writer : ℕ) (path temporary : String) (pieces : List (List UInt8))
  | write (writer : ℕ)
  | sync (writer : ℕ)
  /-- Writing, syncing or renaming fails, and the temporary file is removed, if it can be. -/
  | fail (writer : ℕ) (removed : Bool)
  | persist (writer : ℕ)
  | syncDirectory (writer : ℕ) (result : DirectorySync)
  | remove (path : String)
  | crash (entries : String → Option ℕ) (lost : ℕ → List UInt8)

namespace OutputDirectory

variable (s : OutputDirectory)

def writerAt (writer : ℕ) (phase : WriterPhase) : Option Writer :=
  (s.writers.lookup writer).filter (·.phase = phase)

def returns (writer : ℕ) (call : Writer) (outcome : WriteOutcome) : OutputDirectory :=
  { s with
    writers := s.writers.erase writer
    returned := s.returned ++ [(call, outcome)] }

/-- A new temporary file; `path` is not one. -/
def starts (writer : ℕ) (path temporary : String) (pieces : List (List UInt8)) : Option OutputDirectory :=
  if s.writers.lookup writer = none ∧ s.files.entries temporary = none ∧ IsTemporary temporary ∧ ¬IsTemporary path then
    some { s with
      files := s.files.create temporary []
      writers := s.writers.insert writer ⟨path, temporary, s.files.next, pieces, .writing, pieces.flatten⟩
      offered := s.offered ++ [(path, pieces.flatten)] }
  else none

def fails (writer : ℕ) (call : Writer) (removed : Bool) : OutputDirectory :=
  { s.returns writer call .unpublished with
    files := if removed then s.files.remove call.temporary else s.files }

def step : WriteStep → Option OutputDirectory
  | .start writer path temporary pieces => s.starts writer path temporary pieces
  | .write writer =>
    (s.writerAt writer .writing).bind fun call =>
      match call.pieces with
      | [] => none
      | piece :: pieces => some { s with
          files := s.files.write call.file (s.files.contents call.file ++ piece)
          writers := s.writers.insert writer { call with pieces := pieces } }
  | .sync writer =>
    (s.writerAt writer .writing).bind fun call =>
      match call.pieces with
      | [] => some { s with
          files := s.files.sync call.file
          writers := s.writers.insert writer { call with phase := .synced } }
      | _ :: _ => none
  | .fail writer removed =>
    ((s.writerAt writer .writing).or (s.writerAt writer .synced)).map fun call => s.fails writer call removed
  | .persist writer =>
    (s.writerAt writer .synced).map fun call => { s with
      files := s.files.rename call.temporary call.path
      writers := s.writers.insert writer { call with phase := .renamed } }
  | .syncDirectory writer result =>
    (s.writerAt writer .renamed).map fun call =>
      match result with
      | .ok => { s.returns writer call .ok with files := s.files.syncDirectory }
      -- InvalidInput and Unsupported count as success, though nothing was synced
      | .unsupported => s.returns writer call .ok
      | .failed => s.returns writer call .unsynced
  | .remove path => if IsTemporary path then none else some { s with files := s.files.remove path }
  -- no call outlives a crash
  | .crash entries lost => some { s with files := s.files.crash entries lost, writers := ∅ }

end OutputDirectory

def CrashFits (s : OutputDirectory) : WriteStep → Prop
  | .crash entries _ => ∀ name, entries name ∈ s.files.since name
  | _ => True

end AtomicWrite

end RustProfile
