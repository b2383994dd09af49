import Mathlib.Data.List.Infix

/-!
# Channels

A queue with two ends. Each end can go away: nothing more is accepted without a
receiver, and what was queued is lost with it; without a sender what is queued
can still be taken. `Carries` says that what was taken is what was sent, in
order.
-/

namespace Channels

variable {α : Type*}

/-- No capacity stands for an unbounded channel. -/
structure Channel (α : Type*) where
  capacity : Option ℕ
  queue : List α := []
  sender : Bool := true
  receiver : Bool := true

inductive TrySend (α : Type*) where
  | sent (channel : Channel α)
  | full
  | disconnected

inductive TryRecv (α : Type*) where
  | received (a : α) (channel : Channel α)
  | empty
  | disconnected

namespace Channel

variable (c : Channel α)

def isFull : Bool := c.capacity.any (· ≤ c.queue.length)

def trySend (a : α) : TrySend α :=
  if c.receiver = false then .disconnected
  else if c.isFull then .full
  else .sent { c with queue := c.queue ++ [a] }

def tryRecv : TryRecv α :=
  match c.queue with
  | a :: queue => .received a { c with queue := queue }
  | [] => if c.sender then .empty else .disconnected

def dropSender : Channel α := { c with sender := false }

def dropReceiver : Channel α := { c with queue := [], receiver := false }

end Channel

/-! ## What the operations say -/

section
variable {c c' : Channel α} {a : α}

theorem trySend_sent (h : c.trySend a = .sent c') :
    c.receiver = true ∧ c.isFull = false ∧ c' = { c with queue := c.queue ++ [a] } := by
  unfold Channel.trySend at h
  by_cases hr : c.receiver = false
  · rw [if_pos hr] at h
    cases h
  · rw [if_neg hr] at h
    by_cases hf : c.isFull = true
    · rw [if_pos hf] at h
      cases h
    · rw [if_neg hf] at h
      cases h
      exact ⟨eq_true_of_ne_false hr, eq_false_of_ne_true hf, rfl⟩

theorem trySend_disconnected (h : c.trySend a = .disconnected) : c.receiver = false := by
  unfold Channel.trySend at h
  by_cases hr : c.receiver = false
  · exact hr
  · rw [if_neg hr] at h
    by_cases hf : c.isFull = true
    · rw [if_pos hf] at h
      cases h
    · rw [if_neg hf] at h
      cases h

theorem tryRecv_received (h : c.tryRecv = .received a c') :
    c.queue = a :: c'.queue ∧ c' = { c with queue := c'.queue } := by
  unfold Channel.tryRecv at h
  cases hq : c.queue with
  | nil =>
    rw [hq] at h
    cases hs : c.sender with
    | true =>
      simp only [hs, if_true] at h
      cases h
    | false =>
      simp only [hs, Bool.false_eq_true, if_false] at h
      cases h
  | cons b queue =>
    rw [hq] at h
    cases h
    exact ⟨rfl, rfl⟩

theorem tryRecv_disconnected (h : c.tryRecv = .disconnected) : c.queue = [] ∧ c.sender = false := by
  unfold Channel.tryRecv at h
  cases hq : c.queue with
  | nil =>
    rw [hq] at h
    cases hs : c.sender with
    | true =>
      simp only [hs, if_true] at h
      cases h
    | false => exact ⟨rfl, rfl⟩
  | cons b queue =>
    rw [hq] at h
    cases h

end

/-! ## First in, first out -/

/-- What was sent is what was taken and what is queued, as long as there is a receiver. -/
structure Carries (c : Channel α) (sent taken : List α) : Prop where
  inOrder : taken <+: sent
  queued : c.receiver = true → sent = taken ++ c.queue
  lost : c.receiver = false → c.queue = []

theorem carries_new (capacity : Option ℕ) : Carries ({ capacity := capacity } : Channel α) [] [] :=
  ⟨List.prefix_refl _, fun _ => rfl, nofun⟩

section
variable {c c' : Channel α} {sent taken : List α} (h : Carries c sent taken) {a : α}

include h

theorem Carries.send (hs : c.trySend a = .sent c') : Carries c' (sent ++ [a]) taken := by
  obtain ⟨hr, -, rfl⟩ := trySend_sent hs
  refine ⟨h.inOrder.trans (List.prefix_append _ _), fun _ => ?_, fun hn => ?_⟩
  · rw [h.queued hr, List.append_assoc]
  · rw [show c.receiver = false from hn] at hr
    cases hr

theorem Carries.recv (hr : c.tryRecv = .received a c') : Carries c' sent (taken ++ [a]) := by
  obtain ⟨hq, hc⟩ := tryRecv_received hr
  have hreceiver : c.receiver = true := by
    by_contra hn
    rw [h.lost (eq_false_of_ne_true hn)] at hq
    cases hq
  have hsent : sent = (taken ++ [a]) ++ c'.queue := by rw [h.queued hreceiver, hq, List.append_assoc]; rfl
  refine ⟨hsent ▸ List.prefix_append _ _, fun _ => hsent, fun hn => ?_⟩
  rw [hc] at hn
  rw [show c.receiver = false from hn] at hreceiver
  cases hreceiver

theorem Carries.dropSender : Carries c.dropSender sent taken := ⟨h.inOrder, h.queued, h.lost⟩

theorem Carries.dropReceiver : Carries c.dropReceiver sent taken := ⟨h.inOrder, nofun, fun _ => rfl⟩

/-- A receiver that finds the channel empty has taken everything. -/
theorem Carries.drained (hr : c.receiver = true) (hq : c.queue = []) : taken = sent := by
  rw [h.queued hr, hq, List.append_nil]

end

end Channels
