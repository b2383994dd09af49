import Mathlib.Data.List.TakeWhile
import Mathlib.Data.List.Infix

/-!
# Rings with reservations

Many producers reserve slots of a ring, and each commits its slot in its own
time. One consumer takes the slots in the order of their reservation, and stops
at one that is not committed. A full ring refuses.
-/

namespace Reservations

variable {α : Type*}

structure Slot (α : Type*) where
  value : α
  committed : Bool := false

structure SlotRing (α : Type*) where
  room : ℕ
  slots : List (Slot α) := []

namespace SlotRing

variable (r : SlotRing α)

def reserve (a : α) : Option (SlotRing α) :=
  if r.slots.length < r.room then some { r with slots := r.slots ++ [⟨a, false⟩] } else none

def commit (i : ℕ) : SlotRing α := { r with slots := r.slots.modify i fun slot => { slot with committed := true } }

def take : Option (α × SlotRing α) :=
  match r.slots with
  | slot :: slots => if slot.committed then some (slot.value, { r with slots := slots }) else none
  | [] => none

def values : List α := r.slots.map Slot.value

/-- What the consumer can take now. -/
def ready : List α := (r.slots.takeWhile Slot.committed).map Slot.value

end SlotRing

section
variable {r r' : SlotRing α} {a : α}

theorem length_values (r : SlotRing α) : r.values.length = r.slots.length := List.length_map _

theorem ready_values (r : SlotRing α) : r.ready <+: r.values := (List.takeWhile_prefix _).map _

/-! ## Producers -/

theorem reserve_some (h : r.reserve a = some r') :
    r'.values = r.values ++ [a] ∧ r'.ready = r.ready ∧ r'.room = r.room ∧ r.slots.length < r.room := by
  unfold SlotRing.reserve at h
  split at h
  · rename_i hroom
    cases h
    refine ⟨by simp [SlotRing.values], ?_, rfl, hroom⟩
    unfold SlotRing.ready
    congr 1
    induction r.slots with
    | nil => simp
    | cons slot slots ih =>
      cases hslot : slot.committed with
      | true => simp [hslot, ih]
      | false => simp [hslot]
  · cases h

theorem reserve_none (h : r.reserve a = none) : r.room ≤ r.slots.length := by
  unfold SlotRing.reserve at h
  split at h
  · cases h
  · rename_i hroom
    exact Nat.not_lt.mp hroom

theorem commit_values (r : SlotRing α) (i : ℕ) : (r.commit i).values = r.values := by
  unfold SlotRing.commit SlotRing.values
  dsimp only
  induction r.slots generalizing i with
  | nil => cases i <;> rfl
  | cons slot slots ih =>
    cases i with
    | zero => rfl
    | succ i =>
      rw [List.modify_succ_cons, List.map_cons, List.map_cons, ih]

theorem ready_commit (r : SlotRing α) (i : ℕ) : r.ready <+: (r.commit i).ready := by
  unfold SlotRing.commit SlotRing.ready
  dsimp only
  induction r.slots generalizing i with
  | nil => exact List.nil_prefix
  | cons slot slots ih =>
    cases hslot : slot.committed with
    | false => simp [hslot]
    | true =>
      cases i with
      | zero => simp [hslot]
      | succ i =>
        rw [List.modify_succ_cons]
        simpa [hslot] using ih i

/-! ## The consumer -/

theorem take_some (h : r.take = some (a, r')) :
    r.values = a :: r'.values ∧ r.ready = a :: r'.ready ∧ r'.room = r.room := by
  unfold SlotRing.take at h
  split at h
  · rename_i slot slots hslots
    split at h
    · rename_i hcommitted
      cases h
      refine ⟨by simp [SlotRing.values, hslots], ?_, rfl⟩
      unfold SlotRing.ready
      rw [hslots]
      simp [hcommitted]
    · cases h
  · cases h

theorem take_none (h : r.take = none) : r.ready = [] := by
  unfold SlotRing.take at h
  unfold SlotRing.ready
  split at h
  · rename_i slot slots hslots
    split at h
    · cases h
    · rename_i hpending
      rw [hslots]
      simp [hpending]
  · rename_i hslots
    rw [hslots]
    rfl

end

end Reservations
