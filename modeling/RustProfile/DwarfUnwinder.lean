import RustProfile.Unwind

/-!
# The DWARF unwinder

`unwind_bytes` walks the frames that framehop finds, from the sampled
instruction pointer outwards. It stops at an address outside the executable
ranges, and at 127 frames. What framehop finds is a parameter: an iterator that
gives a frame, an end or an error at each step.
-/

namespace RustProfile

/-! ## framehop -/

inductive FrameAddress where
  | instructionPointer (address : UInt64)
  | returnAddress (address : UInt64)
  deriving DecidableEq, Repr

/-- A return address belongs to the call before it. -/
def FrameAddress.addressForLookup : FrameAddress → UInt64
  | .instructionPointer address => address
  | .returnAddress address => address - 1

inductive FrameStep where
  | frame (frame : FrameAddress)
  | done
  | failed (error : String)
  deriving DecidableEq, Repr

/-- An unwinder with modules and cache `δ` and iterators `ι`. -/
structure Framehop (δ ι : Type) where
  iterFrames : δ → UInt64 → RawRegisters → List UInt8 → ι
  next : ι → FrameStep × ι
  cache : ι → δ

/-- The addresses of the first frames, at most `n`. -/
def Framehop.addresses {δ ι : Type} (self : Framehop δ ι) : ℕ → ι → List UInt64
  | 0, _ => []
  | n + 1, iterator =>
    match self.next iterator with
    | (.frame frame, iterator) => frame.addressForLookup :: self.addresses n iterator
    | (_, _) => []

/-! ## Code addresses -/

/-- The platform, with what pointer authentication needs to know on aarch64. -/
inductive Arch where
  | x86_64
  | aarch64 (stripPtrAuth : UInt64 → UInt64) (codePointerMask : Option UInt64)

def Arch.isAarch64 : Arch → Bool
  | .x86_64 => false
  | .aarch64 _ _ => true

/-- The one executable address among the candidates. -/
def resolveCandidates (ranges : ExecutableRanges) : List UInt64 → Option UInt64 → Option UInt64
  | [], resolved => resolved
  | candidate :: candidates, resolved =>
    if ranges.contains candidate = false then resolveCandidates ranges candidates resolved
    else match resolved with
      | none => resolveCandidates ranges candidates (some candidate)
      | some previous => if previous = candidate then resolveCandidates ranges candidates (some previous) else none

structure DwarfUnwinder (δ ι : Type) where
  framehop : Framehop δ ι
  arch : Arch
  executableRanges : ExecutableRanges

/-- `{:#x}` of an address. -/
def lowerHex (address : UInt64) : String := "0x" ++ String.ofList (Nat.toDigits 16 address.toNat)

namespace DwarfUnwinder

section
variable {δ ι : Type} (self : DwarfUnwinder δ ι)

def normalizeCodeAddress (address : UInt64) : Option UInt64 :=
  match self.arch with
  | .x86_64 => if self.executableRanges.contains address then some address else none
  | .aarch64 stripPtrAuth codePointerMask =>
    resolveCandidates self.executableRanges
      ([address, address &&& 0x00ffffffffffffff, stripPtrAuth address] ++
        (codePointerMask.map (address &&& ·)).toList) none

/-! ## Walking -/

def unresolvedMessage (ip : UInt64) : String :=
  "instruction pointer " ++ lowerHex ip ++ " does not resolve uniquely to executable memory"

def outsideMessage (address : UInt64) : String :=
  "unwound address " ++ lowerHex address ++ " is outside executable mappings"

/-- The loop, with room for so many more frames. -/
def walk : ℕ → ι → UnwindOutcome → UnwindOutcome × ι
  | 0, iterator, outcome => (outcome, iterator)
  | room + 1, iterator, outcome =>
    match self.framehop.next iterator with
    | (.frame frame, iterator) =>
      let address := frame.addressForLookup
      if self.executableRanges.contains address then
        let outcome := { outcome with frames := outcome.frames ++ [address] }
        if outcome.frames.length = defaultMaxFrames then ({ outcome with truncated := true }, iterator)
        else walk room iterator outcome
      else ({ outcome with error := some (outsideMessage address), fatal := self.arch.isAarch64 }, iterator)
    | (.done, iterator) => (outcome, iterator)
    | (.failed error, iterator) => ({ outcome with error := some error }, iterator)

def unwindBytes (unwinder : δ) (registers : RawRegisters) (stackBytes : List UInt8) : UnwindOutcome × δ :=
  match self.normalizeCodeAddress registers.ip with
  | none => ({ error := some (unresolvedMessage registers.ip), fatal := self.arch.isAarch64 }, unwinder)
  | some ip =>
    let walked := self.walk defaultMaxFrames (self.framehop.iterFrames unwinder ip registers stackBytes) {}
    (walked.1, self.framehop.cache walked.2)

def toUnwindBytes : UnwindBytes δ := ⟨self.unwindBytes⟩

/-! ## What a walk collects -/

/-- The addresses that framehop finds for the registers, at most 127, if their instruction pointer is executable. -/
def found (unwinder : δ) (registers : RawRegisters) (stackBytes : List UInt8) : List UInt64 :=
  match self.normalizeCodeAddress registers.ip with
  | none => []
  | some ip => self.framehop.addresses defaultMaxFrames (self.framehop.iterFrames unwinder ip registers stackBytes)

/-- Those before the first one that is not executable. -/
def collected (unwinder : δ) (registers : RawRegisters) (stackBytes : List UInt8) : List UInt64 :=
  (self.found unwinder registers stackBytes).takeWhile self.executableRanges.contains

/-- A frame takes one place of the room that is left. -/
theorem length_snoc_add {frames : List UInt64} {room limit : ℕ} (h : frames.length + (room + 1) = limit)
    (address : UInt64) : (frames ++ [address]).length + room = limit := by
  rw [List.length_append, List.length_singleton, ← h]
  omega

theorem walk_frames : ∀ (room : ℕ) (iterator : ι) (outcome : UnwindOutcome),
    outcome.frames.length + room = defaultMaxFrames → (self.walk room iterator outcome).1.frames =
      outcome.frames ++ (self.framehop.addresses room iterator).takeWhile self.executableRanges.contains
  | 0, _, outcome, _ => (List.append_nil outcome.frames).symm
  | room + 1, iterator, outcome, hroom => by
    unfold walk Framehop.addresses
    rcases hnext : self.framehop.next iterator with ⟨step, iterator'⟩
    cases step with
    | done => simp
    | failed error => simp
    | frame frame =>
      dsimp only
      by_cases hin : self.executableRanges.contains frame.addressForLookup = true
      · rw [if_pos hin, List.takeWhile_cons_of_pos hin]
        have hlen := length_snoc_add hroom frame.addressForLookup
        by_cases hfull : (outcome.frames ++ [frame.addressForLookup]).length = defaultMaxFrames
        · rw [if_pos hfull]
          obtain rfl : room = 0 := by omega
          simp [Framehop.addresses]
        · rw [if_neg hfull, walk_frames room iterator' _ hlen, List.append_assoc]
          rfl
      · rw [if_neg hin, List.takeWhile_cons_of_neg hin, List.append_nil]

/-- The frames are what framehop finds before it leaves the executable ranges. -/
theorem unwindBytes_frames (unwinder : δ) (registers : RawRegisters) (stackBytes : List UInt8) :
    (self.unwindBytes unwinder registers stackBytes).1.frames = self.collected unwinder registers stackBytes := by
  unfold unwindBytes collected found
  cases self.normalizeCodeAddress registers.ip with
  | none => rfl
  | some ip => exact self.walk_frames defaultMaxFrames _ {} (Nat.zero_add _)

theorem collected_executable {unwinder : δ} {registers : RawRegisters} {stackBytes : List UInt8} {address : UInt64}
    (h : address ∈ self.collected unwinder registers stackBytes) : self.executableRanges.contains address = true :=
  List.all_eq_true.mp List.all_takeWhile address h

theorem walk_fatal : ∀ (room : ℕ) (iterator : ι) (outcome : UnwindOutcome),
    outcome.frames.length + room = defaultMaxFrames → outcome.fatal = false →
    ((self.walk room iterator outcome).1.fatal = true ↔ self.arch.isAarch64 = true ∧
      ∃ address ∈ self.framehop.addresses room iterator, self.executableRanges.contains address = false)
  | 0, _, outcome, _, hfatal => by simp [walk, Framehop.addresses, hfatal]
  | room + 1, iterator, outcome, hroom, hfatal => by
    unfold walk Framehop.addresses
    rcases hnext : self.framehop.next iterator with ⟨step, iterator'⟩
    cases step with
    | done => simp [hfatal]
    | failed error => simp [hfatal]
    | frame frame =>
      dsimp only
      by_cases hin : self.executableRanges.contains frame.addressForLookup = true
      · rw [if_pos hin]
        have hlen := length_snoc_add hroom frame.addressForLookup
        by_cases hfull : (outcome.frames ++ [frame.addressForLookup]).length = defaultMaxFrames
        · rw [if_pos hfull]
          obtain rfl : room = 0 := by omega
          simp [Framehop.addresses, hfatal, hin]
        · have ih := walk_fatal room iterator' { outcome with frames := outcome.frames ++ [frame.addressForLookup] }
            hlen hfatal
          rw [if_neg hfull, ih]
          simp [hin]
      · rw [if_neg hin]
        have hout := Bool.eq_false_of_not_eq_true hin
        exact ⟨fun harch => ⟨harch, _, List.mem_cons_self, hout⟩, And.left⟩

/-- A walk that leaves the executable ranges is fatal on aarch64. -/
theorem unwindBytes_fatal (unwinder : δ) (registers : RawRegisters) (stackBytes : List UInt8) :
    (self.unwindBytes unwinder registers stackBytes).1.fatal = true ↔ self.arch.isAarch64 = true ∧
      (self.normalizeCodeAddress registers.ip = none ∨
        ∃ address ∈ self.found unwinder registers stackBytes, self.executableRanges.contains address = false) := by
  unfold unwindBytes found
  cases self.normalizeCodeAddress registers.ip with
  | none => simp
  | some ip => simpa using self.walk_fatal defaultMaxFrames _ {} (Nat.zero_add _) rfl

end

end DwarfUnwinder

end RustProfile
