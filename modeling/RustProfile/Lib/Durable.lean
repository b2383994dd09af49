import Mathlib.Data.List.Basic
import Mathlib.Logic.Basic

/-!
# Files over crashes

A name refers to a file. After a crash a name may refer to anything that it has
referred to since its directory was last synced, and a file that was not synced
holds anything. A name that only ever refers to files that are synced and good
is so after a crash, too.
-/

namespace Durable

/-- The files of a directory, and what a crash may leave of them. -/
structure Files (N D : Type) where
  entries : N → Option ℕ
  contents : ℕ → D
  synced : ℕ → Bool
  /-- What each name has referred to since the directory was synced. -/
  since : N → List (Option ℕ)
  next : ℕ

section
variable {N D : Type}

namespace Files

section
variable [DecidableEq N]

def refer (self : Files N D) (name : N) (file : Option ℕ) : Files N D :=
  { self with
    entries := fun n => if n = name then file else self.entries n
    since := fun n => if n = name then file :: self.since n else self.since n }

/-- A new file under a new name. -/
def create (self : Files N D) (name : N) (contents : D) : Files N D :=
  { self.refer name (some self.next) with
    contents := fun i => if i = self.next then contents else self.contents i
    synced := fun i => if i = self.next then false else self.synced i
    next := self.next + 1 }

def rename (self : Files N D) (old new : N) : Files N D := (self.refer new (self.entries old)).refer old none

def remove (self : Files N D) (name : N) : Files N D := self.refer name none

end

def write (self : Files N D) (file : ℕ) (contents : D) : Files N D :=
  { self with
    contents := fun i => if i = file then contents else self.contents i
    synced := fun i => if i = file then false else self.synced i }

def sync (self : Files N D) (file : ℕ) : Files N D :=
  { self with synced := fun i => if i = file then true else self.synced i }

def syncDirectory (self : Files N D) : Files N D := { self with since := fun n => [self.entries n] }

/-- What is found after a crash: an entry for each name, and contents for the files that were not synced. -/
def crash (self : Files N D) (entries : N → Option ℕ) (lost : ℕ → D) : Files N D where
  entries := entries
  contents := fun i => if self.synced i then self.contents i else lost i
  synced := fun _ => true
  since := fun n => [entries n]
  next := self.next

/-- Everything is synced. -/
def AtRest (self : Files N D) : Prop :=
  (∀ i, self.synced i = true) ∧ (∀ n, self.since n = [self.entries n]) ∧ ∀ n i, self.entries n = some i → i < self.next

/-- Whatever happens, the name refers to a good file, if to any. -/
structure Holds (files : Files N D) (good : D → Prop) (name : N) : Prop where
  current : files.entries name ∈ files.since name
  synced : ∀ i, some i ∈ files.since name → files.synced i = true
  good : ∀ i, some i ∈ files.since name → good (files.contents i)
  old : ∀ i, some i ∈ files.since name → i < files.next

/-- Whatever happens, the name refers to this file. -/
structure Pinned (files : Files N D) (name : N) (file : ℕ) (contents : D) : Prop where
  since : ∀ entry ∈ files.since name, entry = some file
  current : files.entries name ∈ files.since name
  synced : files.synced file = true
  contents : files.contents file = contents

end Files

variable {files : Files N D} {good : D → Prop} {name : N} {file : ℕ} {contents : D}

namespace Files.Holds

variable (h : files.Holds good name)
include h

theorem entry {i : ℕ} (hi : files.entries name = some i) : good (files.contents i) := h.good i (hi ▸ h.current)

theorem mono {good' : D → Prop} (hgood : ∀ d, good d → good' d) : files.Holds good' name :=
  ⟨h.current, h.synced, fun i hi => hgood _ (h.good i hi), h.old⟩

/-- A file that the name does not refer to may be written. -/
theorem write (hfile : some file ∉ files.since name) (contents : D) : (files.write file contents).Holds good name := by
  have hne : ∀ i, some i ∈ files.since name → i ≠ file := by
    rintro i hi rfl
    exact hfile hi
  refine ⟨h.current, fun i hi => ?_, fun i hi => ?_, h.old⟩
  · exact (if_neg (hne i hi)).trans (h.synced i hi)
  · change good (if i = file then contents else files.contents i)
    rw [if_neg (hne i hi)]
    exact h.good i hi

theorem sync (file : ℕ) : (files.sync file).Holds good name := by
  refine ⟨h.current, fun i hi => ?_, h.good, h.old⟩
  change (if i = file then true else files.synced i) = true
  rw [h.synced i hi, ite_self]

theorem syncDirectory : files.syncDirectory.Holds good name := by
  have hsince : ∀ i, some i ∈ files.syncDirectory.since name → some i ∈ files.since name := fun i hi => by
    rw [List.mem_singleton.mp hi]
    exact h.current
  exact ⟨List.mem_singleton_self _, fun i hi => h.synced i (hsince i hi), fun i hi => h.good i (hsince i hi),
    fun i hi => h.old i (hsince i hi)⟩

theorem crash {entries : N → Option ℕ} (hentries : entries name ∈ files.since name) (lost : ℕ → D) :
    (files.crash entries lost).Holds good name := by
  have hsince : ∀ i, some i ∈ (files.crash entries lost).since name → some i ∈ files.since name := fun i hi => by
    rw [List.mem_singleton.mp hi]
    exact hentries
  refine ⟨List.mem_singleton_self _, fun _ _ => rfl, fun i hi => ?_, fun i hi => h.old i (hsince i hi)⟩
  change good (if files.synced i = true then files.contents i else lost i)
  rw [if_pos (h.synced i (hsince i hi))]
  exact h.good i (hsince i hi)

section
variable [DecidableEq N]

theorem refer_other {other : N} (hother : name ≠ other) (entry : Option ℕ) :
    (files.refer other entry).Holds good name := by
  unfold Files.refer
  refine ⟨?_, fun i hi => ?_, fun i hi => ?_, fun i hi => ?_⟩
  · simpa only [if_neg hother] using h.current
  all_goals simp only [if_neg hother] at hi
  · exact h.synced i hi
  · exact h.good i hi
  · exact h.old i hi

/-- The name comes to refer to another good file. -/
theorem refer_self {entry : Option ℕ}
    (hentry : ∀ i, entry = some i → files.synced i = true ∧ good (files.contents i) ∧ i < files.next) :
    (files.refer name entry).Holds good name := by
  have hsince : ∀ i, some i ∈ (files.refer name entry).since name → some i = entry ∨ some i ∈ files.since name :=
    fun i hi => by
      unfold Files.refer at hi
      simpa using hi
  unfold Files.refer at hsince ⊢
  refine ⟨by simp, fun i hi => ?_, fun i hi => ?_, fun i hi => ?_⟩
  · obtain hnew | hold := hsince i hi
    · exact (hentry i hnew.symm).1
    · exact h.synced i hold
  · obtain hnew | hold := hsince i hi
    · exact (hentry i hnew.symm).2.1
    · exact h.good i hold
  · obtain hnew | hold := hsince i hi
    · exact (hentry i hnew.symm).2.2
    · exact h.old i hold

theorem create {other : N} (hother : name ≠ other) (contents : D) : (files.create other contents).Holds good name := by
  have hrefer := h.refer_other hother (some files.next)
  have hne : ∀ i, some i ∈ (files.refer other (some files.next)).since name → i ≠ files.next :=
    fun i hi => Nat.ne_of_lt (hrefer.old i hi)
  refine ⟨hrefer.current, fun i hi => ?_, fun i hi => ?_, fun i hi => Nat.lt_succ_of_lt (hrefer.old i hi)⟩
  · exact (if_neg (hne i hi)).trans (hrefer.synced i hi)
  · change good (if i = files.next then contents else files.contents i)
    rw [if_neg (hne i hi)]
    exact hrefer.good i hi

end

end Files.Holds

namespace Files.Pinned

variable (h : files.Pinned name file contents)
include h

theorem entry : files.entries name = some file := h.since _ h.current

theorem write {other : ℕ} (hother : file ≠ other) (d : D) : (files.write other d).Pinned name file contents :=
  ⟨h.since, h.current, (if_neg hother).trans h.synced, (if_neg hother).trans h.contents⟩

theorem sync (other : ℕ) : (files.sync other).Pinned name file contents := by
  refine ⟨h.since, h.current, ?_, h.contents⟩
  change (if file = other then true else files.synced file) = true
  rw [h.synced, ite_self]

theorem syncDirectory : files.syncDirectory.Pinned name file contents :=
  ⟨fun e he => by rw [List.mem_singleton.mp he, h.entry], List.mem_singleton_self _, h.synced, h.contents⟩

theorem crash {entries : N → Option ℕ} (hentries : entries name ∈ files.since name) (lost : ℕ → D) :
    (files.crash entries lost).Pinned name file contents :=
  ⟨fun e he => by rw [List.mem_singleton.mp he, h.since _ hentries], List.mem_singleton_self _, rfl,
    (if_pos h.synced).trans h.contents⟩

section
variable [DecidableEq N]

theorem refer_other {other : N} (hother : name ≠ other) (entry : Option ℕ) :
    (files.refer other entry).Pinned name file contents := by
  refine ⟨fun e he => ?_, ?_, h.synced, h.contents⟩
  · simp only [Files.refer, if_neg hother] at he
    exact h.since e he
  · simpa only [Files.refer, if_neg hother] using h.current

theorem create {other : N} (hother : name ≠ other) (hfile : file < files.next) (d : D) :
    (files.create other d).Pinned name file contents := by
  have hrefer := h.refer_other hother (some files.next)
  have hold : file ≠ files.next := Nat.ne_of_lt hfile
  exact ⟨hrefer.since, hrefer.current, (if_neg hold).trans h.synced, (if_neg hold).trans h.contents⟩

end

end Files.Pinned

/-- Once the directory is synced, a name is pinned to the synced file that it refers to. -/
theorem pinned_syncDirectory (hentry : files.entries name = some file) (hsynced : files.synced file = true) :
    files.syncDirectory.Pinned name file (files.contents file) :=
  ⟨fun e he => by rw [List.mem_singleton.mp he, hentry], List.mem_singleton_self _, hsynced, rfl⟩

end

end Durable
