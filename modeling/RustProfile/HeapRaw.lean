import RustProfile.HeapCollector
import RustProfile.Lib.Bytes

/-!
# Raw heap events

The collector gets records as byte strings of any length and content. What
indexes or slices them is an `Option`: `none` is a panic. The counters that go up
by `+= 1` are those of a release build, which wraps.
-/

namespace RustProfile

/-- `HEADER_SIZE`. -/
def heapHeaderSize : ℕ := 88

def eventStack : UInt32 := 1
def eventAlloc : UInt32 := 2
def eventFree : UInt32 := 3

/-- `bytes[start..stop]`. -/
def sliceBytes (bytes : List UInt8) (start stop : ℕ) : Option (List UInt8) :=
  if start ≤ stop ∧ stop ≤ bytes.length then some ((bytes.drop start).take (stop - start)) else none

/-- `EventHeader`, whose kind can be any number here. -/
structure RawHeader where
  kind : UInt32
  unwindMode : UInt32
  token : ℕ
  pointer : UInt64
  size : UInt64
  weight : UInt64
  ip : UInt64
  sp : UInt64
  fp : UInt64
  lr : UInt64
  stackLength : ℤ
  deriving DecidableEq, Repr

namespace RawHeader

def readU32 (bytes : List UInt8) (offset : ℕ) : Option UInt32 := (Bytes.readAt 4 offset bytes).map UInt32.ofNat

def readU64 (bytes : List UInt8) (offset : ℕ) : Option UInt64 := (Bytes.readAt 8 offset bytes).map UInt64.ofNat

/-- `i32::from_ne_bytes`. -/
def i32FromBytes (bytes : List UInt8) : ℤ := (BitVec.ofNat 32 (Bytes.toNat bytes)).toInt

/-- `EventHeader::parse`. -/
def parse (bytes : List UInt8) : Option (Option RawHeader) :=
  if bytes.length ≥ heapHeaderSize then do
    let kind ← readU32 bytes 0
    let unwindMode ← readU32 bytes 4
    let token ← readU64 bytes 16
    let pointer ← readU64 bytes 24
    let size ← readU64 bytes 32
    let weight ← readU64 bytes 40
    let ip ← readU64 bytes 48
    let sp ← readU64 bytes 56
    let fp ← readU64 bytes 64
    let lr ← readU64 bytes 72
    let stackLength ← (sliceBytes bytes 80 84).map i32FromBytes
    return some { kind := kind, unwindMode := unwindMode, token := token.toNat, pointer := pointer, size := size
                  weight := weight, ip := ip, sp := sp, fp := fp, lr := lr, stackLength := stackLength }
  else some none

variable (self : RawHeader)

/-- The widths and values of the kernel's `event_header`, with no process and thread. -/
def layout : List (ℕ × ℕ) :=
  [(4, self.kind.toNat), (4, self.unwindMode.toNat), (4, 0), (4, 0), (8, self.token), (8, self.pointer.toNat),
    (8, self.size.toNat), (8, self.weight.toNat), (8, self.ip.toNat), (8, self.sp.toNat), (8, self.fp.toNat),
    (8, self.lr.toNat), (4, self.stackLength.toNat), (4, 0)]

def event (kind : EventKind) (stack : List UInt8) : RawEvent where
  header :=
    { kind := kind, unwindMode := self.unwindMode, token := self.token, pointer := self.pointer, size := self.size
      weight := self.weight, ip := self.ip, sp := self.sp, fp := self.fp, lr := self.lr
      stackLength := self.stackLength }
  stack := stack

/-- The stack bytes that the header announces, no more than `limit` and than the record has. -/
def stackBytes (bytes : List UInt8) (limit : ℕ) : Option (List UInt8) :=
  sliceBytes bytes heapHeaderSize
    (heapHeaderSize + min (min self.stackLength.toNat limit) (bytes.length - heapHeaderSize))

/-- `parse_fp_stack`. -/
def fpStack (bytes : List UInt8) : Option (List UInt64) :=
  (self.stackBytes bytes (defaultMaxFrames * 8)).map fun stack => parseFpStack (self.event .stack stack)

end RawHeader

namespace HeapCollector

section
variable {δ : Type} (unwinder : UnwindBytes δ) (self : HeapCollector δ) (bytes : List UInt8) (header : RawHeader)

/-- `unwind_stack`: only an unwinder gets the stack bytes. -/
def unwindStackBytes : Option (List UInt64 × HeapCollector δ) :=
  match self.dwarf with
  | none => some (self.unwindStack unwinder (header.event .stack []))
  | some _ => (header.stackBytes bytes header.stackLength.toNat).map fun stack =>
      self.unwindStack unwinder (header.event .stack stack)

def stackFramesBytes : Option (List UInt64 × HeapCollector δ) :=
  if header.unwindMode = 1 then (header.fpStack bytes).map (·, self) else self.unwindStackBytes unwinder bytes header

/-- `limitPendingStacks` with the index of the cutoff checked. -/
def limitPendingStacksAt : Option (HeapCollector δ) :=
  if self.pendingStacks.size > pendingStacksMax then
    let tokens := self.pendingStacks.keys.insertionSort (· ≤ ·)
    let middle := tokens.length / 2
    tokens[middle]?.map fun cutoff =>
      let pendingStacks := self.pendingStacks.retain fun token _ => cutoff ≤ token
      { self with
        pendingStacks := pendingStacks
        localStackFailures :=
          .ofNat (saturatingAddU64 self.localStackFailures.toNat (self.pendingStacks.size - pendingStacks.size)) }
  else some self

/-- `storeStack` with the index of the cutoff checked. -/
def storeStackAt (token : ℕ) (frames : List UInt64) : Option (HeapCollector δ) :=
  let cyclic := hasAddressCycle frames
  let invalid := frames.any fun address => !self.executableRanges.contains address
  if frames = [] ∨ cyclic ∨ invalid then some { self with localStackFailures := self.localStackFailures + 1 }
  else
    let self := { self with
      localUsableStacks := self.localUsableStacks + 1
      localDepthSum := saturatingAddU64 self.localDepthSum frames.length
      pendingStacks := self.pendingStacks.insert token frames }
    self.limitPendingStacksAt

/-- `apply_raw_event` on the bytes of a record. -/
def applyRawBytes : Option (HeapCollector δ) :=
  (RawHeader.parse bytes).bind fun
    | none => some { self with localStackFailures := self.localStackFailures + 1 }
    | some header =>
      if header.kind = eventStack then
        let self := { self with localStackSamples := self.localStackSamples + 1 }
        (self.stackFramesBytes unwinder bytes header).bind fun (frames, self) => self.storeStackAt header.token frames
      else if header.kind = eventAlloc then
        match self.pendingStacks.lookup header.token with
        | none => some { self with localStackFailures := self.localStackFailures + 1 }
        | some frames =>
          let event : HeapEvent :=
            { kind := .alloc, pointer := header.pointer, size := header.size, weight := header.weight
              frames := frames }
          some { self with
            pendingStacks := self.pendingStacks.erase header.token, state := self.state.apply event }
      else if header.kind = eventFree then
        some { self with
          state := self.state.apply
            { kind := .free, pointer := header.pointer, size := 0, weight := 0, frames := [] } }
      else some self

end

end HeapCollector

end RustProfile
