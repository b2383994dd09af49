import RustProfile.Lib.Table

/-!
# Semaphores

A semaphore knows the tasks that own one of its permits: a task acquires its
permit when it begins and releases it when it ends, so no permit is lost and
none is made.
-/

/-- The tasks that own a permit, and how many permits are free. -/
structure Semaphore (total : ℕ) (κ ν : Type*) [DecidableEq κ] where
  holders : Table κ ν
  free : ℕ
  conserved : holders.size + free = total

namespace Semaphore

section
variable {total : ℕ} {κ ν : Type*} [DecidableEq κ]

def new : Semaphore total κ ν := ⟨∅, total, Nat.zero_add total⟩

theorem size_erase {holders : Table κ ν} {k : κ} (h : k ∈ holders) : (holders.erase k).size + 1 = holders.size := by
  obtain ⟨v, hv⟩ := Table.mem_iff.mp h
  exact (Table.entries_perm hv).length_eq.symm

/-- `try_acquire_owned` for a new task. -/
def tryAcquire (s : Semaphore total κ ν) (k : κ) (v : ν) : Option (Semaphore total κ ν) :=
  if h : k ∉ s.holders ∧ 0 < s.free then
    some ⟨s.holders.insert k v, s.free - 1, by
      have := s.conserved
      rw [Table.size_insert_of_notMem h.1]
      omega⟩
  else none

/-- The task ends. -/
def release (s : Semaphore total κ ν) (k : κ) : Semaphore total κ ν :=
  if h : k ∈ s.holders then
    ⟨s.holders.erase k, s.free + 1, by
      have := s.conserved
      have := size_erase h
      omega⟩
  else s

/-- The task goes on with its permit. -/
def goOn (s : Semaphore total κ ν) (k : κ) (v : ν) : Semaphore total κ ν :=
  if h : k ∈ s.holders then ⟨s.holders.insert k v, s.free, by rw [Table.size_insert_of_mem h, s.conserved]⟩ else s

theorem size_le (s : Semaphore total κ ν) : s.holders.size ≤ total := by
  have := s.conserved
  omega

theorem tryAcquire_eq_some {s t : Semaphore total κ ν} {k : κ} {v : ν} (h : s.tryAcquire k v = some t) :
    k ∉ s.holders ∧ t.holders = s.holders.insert k v := by
  unfold tryAcquire at h
  split at h
  case isTrue hfree =>
    cases h
    exact ⟨hfree.1, rfl⟩
  case isFalse => cases h

/-- A new task is refused exactly when every permit is owned. -/
theorem tryAcquire_eq_none {s : Semaphore total κ ν} {k : κ} (hk : k ∉ s.holders) (v : ν) :
    s.tryAcquire k v = none ↔ s.holders.size = total := by
  have := s.conserved
  unfold tryAcquire
  by_cases hfree : 0 < s.free
  · rw [dif_pos ⟨hk, hfree⟩]
    exact ⟨fun h => (by cases h), fun h => by omega⟩
  · rw [dif_neg fun h => hfree h.2]
    exact ⟨fun _ => by omega, fun _ => rfl⟩

theorem holders_release (s : Semaphore total κ ν) (k : κ) : (s.release k).holders = s.holders.erase k := by
  unfold release
  split
  case isTrue => rfl
  case isFalse h => exact (Table.erase_of_notMem h).symm

theorem lookup_goOn {s : Semaphore total κ ν} {k : κ} (h : k ∈ s.holders) (v : ν) :
    (s.goOn k v).holders = s.holders.insert k v := by
  unfold goOn
  rw [dif_pos h]

end

end Semaphore
