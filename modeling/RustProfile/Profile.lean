import Mathlib.Data.List.Nodup
import Mathlib.Data.Int.Order.Basic

/-! # Profile data -/

namespace RustProfile

structure Frame where
  address : UInt64
  deriving DecidableEq, Repr

structure Stack where
  frames : List Frame
  deriving DecidableEq, Repr

/-- `Stack::from` of the frames at `addresses`. -/
def Stack.ofAddresses (addresses : List UInt64) : Stack := ⟨addresses.map Frame.mk⟩

structure AttributedStack where
  stack : Stack
  pid : UInt32
  tid : UInt32
  threadName : Option String
  deriving DecidableEq, Repr

structure CpuValues where
  samples : ℤ := 0
  nanoseconds : ℤ := 0
  deriving DecidableEq, Repr, Inhabited

@[ext] structure HeapValues where
  allocObjects : ℤ := 0
  allocSpace : ℤ := 0
  inuseObjects : ℤ := 0
  inuseSpace : ℤ := 0
  deriving DecidableEq, Repr, Inhabited

structure OffCpuValues where
  events : ℤ := 0
  nanoseconds : ℤ := 0
  deriving DecidableEq, Repr, Inhabited

structure TimedStackSample where
  stack : Stack
  pid : UInt32
  tid : UInt32
  threadName : Option String
  timestamp : ℕ
  cpuDelta : ℕ
  deriving DecidableEq, Repr

/-- `seen.insert` succeeds for every address in turn. -/
def insertAll (seen : List UInt64) : List UInt64 → Bool
  | [] => true
  | a :: as => a ∉ seen && insertAll (a :: seen) as

def hasAddressCycle (frames : List UInt64) : Bool := !insertAll [] frames

theorem insertAll_iff : ∀ (frames seen : List UInt64),
    insertAll seen frames = true ↔ frames.Nodup ∧ ∀ a ∈ frames, a ∉ seen
  | [], _ => by simp [insertAll]
  | a :: as, seen => by
    rw [insertAll, Bool.and_eq_true, decide_eq_true_eq, insertAll_iff as (a :: seen), List.nodup_cons]
    simp only [List.mem_cons, not_or, forall_eq_or_imp]
    constructor
    · rintro ⟨ha, hn, h⟩
      exact ⟨⟨fun hm => (h a hm).1 rfl, hn⟩, ha, fun b hb => (h b hb).2⟩
    · rintro ⟨⟨hm, hn⟩, ha, h⟩
      exact ⟨ha, hn, fun b hb => ⟨fun e => hm (e ▸ hb), h b hb⟩⟩

theorem hasAddressCycle_iff (frames : List UInt64) : hasAddressCycle frames = true ↔ ¬ frames.Nodup := by
  unfold hasAddressCycle
  rw [Bool.not_eq_true', ← Bool.not_eq_true, insertAll_iff]
  simp

end RustProfile
