import RustProfile.Profile
import Mathlib.Data.List.Sort
import Mathlib.Order.Basic

/-!
# Executable ranges and unwinding

The merged executable mappings of a process, and the interface of the unwinder.
How a stack is unwound depends on a package outside the repository, so the
unwinder is a state and a function that reads registers and stack bytes.
-/

namespace RustProfile

/-! ## Executable ranges -/

structure MapEntry where
  start : UInt64
  stop : UInt64
  permissions : List UInt8
  deriving DecidableEq, Repr

/-- The third permission letter is `x`. -/
def MapEntry.isExecutable (mapping : MapEntry) : Bool := mapping.permissions[2]? = some 120

structure AddressRange where
  start : UInt64
  stop : UInt64
  deriving DecidableEq, Repr

def AddressRange.Mem (range : AddressRange) (address : UInt64) : Prop := range.start ≤ address ∧ address < range.stop

/-- Ranges in the order of their starts, as `contains` relies on. -/
structure ExecutableRanges where
  ranges : List AddressRange
  sorted : ranges.Pairwise fun a b => a.start ≤ b.start

/-- Merge the ranges that touch the one before them. -/
def mergeRanges (previous : AddressRange) : List AddressRange → List AddressRange
  | [] => [previous]
  | range :: rest =>
    if range.start ≤ previous.stop then mergeRanges { previous with stop := max previous.stop range.stop } rest
    else previous :: mergeRanges range rest

def mergedRanges : List AddressRange → List AddressRange
  | [] => []
  | range :: rest => mergeRanges range rest

theorem start_of_mem_mergeRanges {r : AddressRange} : ∀ (rest : List AddressRange) (previous : AddressRange),
    r ∈ mergeRanges previous rest → r.start = previous.start ∨ ∃ range ∈ rest, r.start = range.start
  | [], previous, h => by
    rw [mergeRanges, List.mem_singleton] at h
    exact Or.inl (congrArg AddressRange.start h)
  | range :: rest, previous, h => by
    rw [mergeRanges] at h
    split at h
    · rcases start_of_mem_mergeRanges rest _ h with h | ⟨s, hs, h⟩
      · exact Or.inl h
      · exact Or.inr ⟨s, List.mem_cons_of_mem _ hs, h⟩
    · rcases List.mem_cons.mp h with h | h
      · exact Or.inl (congrArg AddressRange.start h)
      · rcases start_of_mem_mergeRanges rest _ h with h | ⟨s, hs, h⟩
        · exact Or.inr ⟨range, List.mem_cons_self, h⟩
        · exact Or.inr ⟨s, List.mem_cons_of_mem _ hs, h⟩

theorem mergeRanges_sorted : ∀ (rest : List AddressRange) (previous : AddressRange),
    (previous :: rest).Pairwise (fun a b => a.start ≤ b.start) →
      (mergeRanges previous rest).Pairwise fun a b => a.start ≤ b.start
  | [], _, _ => List.pairwise_singleton _ _
  | range :: rest, previous, h => by
    obtain ⟨hp, hrest⟩ := List.pairwise_cons.mp h
    rw [mergeRanges]
    split
    · refine mergeRanges_sorted rest _ (List.pairwise_cons.mpr ⟨fun r hr => ?_, (List.pairwise_cons.mp hrest).2⟩)
      exact hp r (List.mem_cons_of_mem _ hr)
    · refine List.pairwise_cons.mpr ⟨fun r hr => ?_, mergeRanges_sorted rest range hrest⟩
      rcases start_of_mem_mergeRanges rest range hr with e | ⟨s, hs, e⟩
      · rw [e]; exact hp range List.mem_cons_self
      · rw [e]; exact hp s (List.mem_cons_of_mem _ hs)

theorem mergedRanges_sorted : ∀ {ranges : List AddressRange}, ranges.Pairwise (fun a b => a.start ≤ b.start) →
    (mergedRanges ranges).Pairwise fun a b => a.start ≤ b.start
  | [], _ => List.Pairwise.nil
  | _ :: rest, h => mergeRanges_sorted rest _ h

def AddressRange.Le (a b : AddressRange) : Prop := a.start ≤ b.start

instance : DecidableRel AddressRange.Le := fun a b => UInt64.decLe a.start b.start
instance : Std.Total AddressRange.Le := ⟨fun a b => UInt64.le_total a.start b.start⟩
instance : IsTrans AddressRange AddressRange.Le := ⟨fun _ _ _ => UInt64.le_trans⟩

def executableMappings (maps : List MapEntry) : List AddressRange :=
  ((maps.filter MapEntry.isExecutable).map fun mapping => ⟨mapping.start, mapping.stop⟩).insertionSort AddressRange.Le

namespace ExecutableRanges

def fromMaps (maps : List MapEntry) : ExecutableRanges where
  ranges := mergedRanges (executableMappings maps)
  sorted := mergedRanges_sorted (List.pairwise_insertionSort AddressRange.Le _)

/-- The last range that starts at or below the address ends above it. -/
def contains (self : ExecutableRanges) (address : UInt64) : Bool :=
  match (self.ranges.takeWhile fun range => range.start ≤ address).getLast? with
  | some range => address < range.stop
  | none => false

end ExecutableRanges

/-! ## The unwinder -/

structure RawRegisters where
  ip : UInt64
  sp : UInt64
  fp : UInt64
  lr : UInt64
  deriving DecidableEq, Repr

structure UnwindOutcome where
  frames : List UInt64 := []
  truncated : Bool := false
  error : Option String := none
  fatal : Bool := false
  deriving DecidableEq, Repr

/-- An unwinder with state `δ`. -/
structure UnwindBytes (δ : Type) where
  unwindBytes : δ → RawRegisters → List UInt8 → UnwindOutcome × δ

def defaultMaxFrames : ℕ := 127

end RustProfile
