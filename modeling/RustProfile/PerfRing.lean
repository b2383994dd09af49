import RustProfile.Lib.Cyclic
import RustProfile.PerfRecord

/-!
# Draining a ring

The kernel writes records to a ring of bytes behind a metadata page. `drain`
copies a header, checks its size, copies the record and goes on behind it, until
it has reached the head. Both copies wrap around the end of the ring.
-/

namespace RustProfile

def perfRecordLost : UInt32 := 2
def perfRecordSample : UInt32 := 9
def perfRecordLostSamples : UInt32 := 13

/-- The kernel's metadata page. -/
structure MmapPage where
  dataHead : UInt64
  dataTail : UInt64
  dataOffset : UInt64
  dataSize : UInt64

/-- The bytes of the mapping, and what its first page says. -/
structure PerfEvent where
  ring : List UInt8
  metadata : MmapPage
  mode : UnwindMode
  registerMask : UInt64

/-- A record with its header. -/
structure RawRecord where
  kind : UInt32
  bytes : List UInt8
  deriving DecidableEq

/-- Why a drain does not return. -/
inductive DrainFault where
  | outOfFuel
  | outOfBounds
  deriving DecidableEq

/-- What a drain leaves behind. Nothing in the program reads `handled`. -/
structure Drained where
  dataTail : UInt64
  batch : PerfBatch
  handled : List RawRecord

def PerfBatch.countMalformed (self : PerfBatch) : PerfBatch :=
  { self with malformedRecords := self.malformedRecords + 1 }

/-- `&bytes[first..last]`. -/
def slice (bytes : List UInt8) (first last : ℕ) : Except DrainFault (List UInt8) :=
  if first ≤ last ∧ last ≤ bytes.length then .ok ((bytes.take last).drop first) else .error .outOfBounds

def headerKind (header : List UInt8) : UInt32 := UInt32.ofNat (Bytes.toNat (header.take 4))

def headerSize (header : List UInt8) : ℕ := Bytes.toNat ((header.drop 6).take 2)

namespace PerfEvent

variable (self : PerfEvent)

/-- The bytes of the ring, if the mapping has them. -/
def dataPages : Option (List UInt8) :=
  let ringStart := self.metadata.dataOffset.toNat
  let ringSize := self.metadata.dataSize.toNat
  if ringStart + ringSize < 2 ^ 64 ∧ ringStart + ringSize ≤ self.ring.length then
    some ((self.ring.drop ringStart).take ringSize)
  else none

def ringPosition (absoluteOffset : UInt64) : ℕ := (absoluteOffset &&& (self.metadata.dataSize - 1)).toNat

def copyFromRing (absoluteOffset : UInt64) (length : ℕ) : Except DrainFault (Option (List UInt8)) :=
  match self.dataPages with
  | none => .ok none
  | some ring =>
    let ringSize := self.metadata.dataSize.toNat
    let start := self.ringPosition absoluteOffset
    if length > ringSize then .ok none
    else do
      let first := min length (ringSize - start)
      let output ← slice ring start (start + first)
      -- the rest stands at the start of the ring
      if first ≠ length then
        let wrapped ← slice ring 0 (length - first)
        return some (output ++ wrapped)
      else return some output

def recordFromRing (absoluteOffset : UInt64) (length : ℕ) : Except DrainFault (Option (List UInt8)) :=
  match self.dataPages with
  | none => .ok none
  | some ring =>
    let ringSize := self.metadata.dataSize.toNat
    let start := self.ringPosition absoluteOffset
    if length > ringSize then .ok none
    else if length ≤ ringSize - start then do
      let record ← slice ring start (start + length)
      return some record
    else do
      let first := ringSize - start
      let bytes ← slice ring start ring.length
      let wrapped ← slice ring 0 (length - first)
      return some (bytes ++ wrapped)

/-- The lost samples that a record reports at an offset. -/
def countLost (batch : PerfBatch) (record : List UInt8) (offset : ℕ) : PerfBatch :=
  match Bytes.readAt 8 offset record with
  | some lost => { batch with lostSamples := saturatingAddU64 batch.lostSamples lost }
  | none => batch.countMalformed

def handle (batch : PerfBatch) (record : RawRecord) : Except DrainFault PerfBatch :=
  if record.kind = perfRecordSample then do
    let body ← slice record.bytes 8 record.bytes.length
    match parseSample body self.mode self.registerMask with
    | some sample => return { batch with samples := batch.samples ++ [sample] }
    | none => return batch.countMalformed
  else if record.kind = perfRecordLost then .ok (countLost batch record.bytes 16)
  else if record.kind = perfRecordLostSamples then .ok (countLost batch record.bytes 8)
  else .ok batch

/-- The loop. `tail + size` wraps in a release build. -/
def drainFrom (head : UInt64) : ℕ → UInt64 → PerfBatch → List RawRecord → Except DrainFault Drained
  | 0, _, _, _ => .error .outOfFuel
  | fuel + 1, tail, batch, handled =>
    if tail < head then do
      match ← self.copyFromRing tail 8 with
      | none => return ⟨head, batch.countMalformed, handled⟩
      | some header =>
        let size := headerSize header
        -- the sum wraps at `2^64`; what is between the tail and the head is given up
        if size < 8 ∨ UInt64.ofNat size > self.metadata.dataSize ∨ tail + UInt64.ofNat size > head then
          return ⟨head, batch.countMalformed, handled⟩
        else
          match ← self.recordFromRing tail size with
          | none => return ⟨head, batch.countMalformed, handled⟩
          | some bytes =>
            let record : RawRecord := ⟨headerKind header, bytes⟩
            let batch ← self.handle batch record
            drainFrom head fuel (tail + UInt64.ofNat size) batch (handled ++ [record])
    else return ⟨tail, batch, handled⟩

/-- `u64::is_power_of_two`. -/
def isPowerOfTwo (value : UInt64) : Bool := 2 ^ value.toNat.log2 = value.toNat

def drain (fuel : ℕ) (batch : PerfBatch) : Except DrainFault Drained :=
  if self.metadata.dataSize = 0 ∨ isPowerOfTwo self.metadata.dataSize = false then
    .ok ⟨self.metadata.dataTail, batch.countMalformed, []⟩
  else self.drainFrom self.metadata.dataHead fuel self.metadata.dataTail batch []

end PerfEvent

/-! ## What a drain is for -/

/-- The records of a stream of bytes, and whether a header ends it before its end. -/
def parseRecords (limit : ℕ) (bytes : List UInt8) : List RawRecord × Bool :=
  if bytes = [] then ([], false)
  else if bytes.length < 8 ∨ headerSize bytes < 8 ∨ headerSize bytes > limit ∨ headerSize bytes > bytes.length then
    ([], true)
  else
    let rest := parseRecords limit (bytes.drop (headerSize bytes))
    (⟨headerKind bytes, bytes.take (headerSize bytes)⟩ :: rest.1, rest.2)
  termination_by bytes.length
  decreasing_by
    rw [List.length_drop]
    omega

/-- What a record adds to a batch. -/
inductive Contribution where
  | parsed (sample : PerfSample)
  | lost (count : ℕ)
  | malformed
  | nothing

def lostAt (record : List UInt8) (offset : ℕ) : Contribution :=
  (Bytes.readAt 8 offset record).elim .malformed .lost

/-- A sample is parsed; a lost record has its count behind an id, a lost-samples record behind its header. -/
def RawRecord.contribution (mode : UnwindMode) (registerMask : UInt64) (self : RawRecord) : Contribution :=
  if self.kind = perfRecordSample then (parseSample (self.bytes.drop 8) mode registerMask).elim .malformed .parsed
  else if self.kind = perfRecordLost then lostAt self.bytes 16
  else if self.kind = perfRecordLostSamples then lostAt self.bytes 8
  else .nothing

def Contribution.sample? : Contribution → Option PerfSample
  | .parsed sample => some sample
  | _ => none

def Contribution.lostCount : Contribution → ℕ
  | .lost count => count
  | _ => 0

def Contribution.malformedCount : Contribution → ℕ
  | .malformed => 1
  | _ => 0

namespace PerfEvent

variable (self : PerfEvent)

def data : List UInt8 := (self.ring.drop self.metadata.dataOffset.toNat).take self.metadata.dataSize.toNat

/-- The bytes from an offset up to the head; the byte at `i` is the ring's at `i` modulo its size. -/
def stream (offset : ℕ) : List UInt8 := Cyclic.window self.data offset (self.metadata.dataHead.toNat - offset)

/-- The records between the tail and the head, and whether a header ends them early. -/
def pending : List RawRecord × Bool :=
  parseRecords self.metadata.dataSize.toNat (self.stream self.metadata.dataTail.toNat)

def contributions : List Contribution := self.pending.1.map (RawRecord.contribution self.mode self.registerMask)

/-- Where the pending records end. -/
def stop : ℕ := self.metadata.dataTail.toNat + (self.pending.1.map fun record => record.bytes.length).sum

/-- The size in the header at an offset. -/
def sizeAt (offset : ℕ) : ℕ := headerSize (Cyclic.window self.data offset 8)

/-- A header of an admissible size that reaches past the last offset there is. -/
def Wraps (offset : ℕ) : Prop :=
  8 ≤ self.sizeAt offset ∧ self.sizeAt offset ≤ self.metadata.dataSize.toNat ∧ 2 ^ 64 ≤ offset + self.sizeAt offset

instance (offset : ℕ) : Decidable (self.Wraps offset) := inferInstanceAs (Decidable (_ ∧ _ ∧ _))

/-- No header that ends the pending records wraps. -/
def NoWrap : Prop := self.stop < self.metadata.dataHead.toNat → ¬ self.Wraps self.stop

instance : Decidable self.NoWrap := inferInstanceAs (Decidable (_ → _))

/-- What the kernel keeps to: the ring is in the mapping, and between tail and head there is no more than one round. -/
structure Mapped (event : PerfEvent) : Prop where
  addressable : event.ring.length < 2 ^ 64
  fits : event.metadata.dataOffset.toNat + event.metadata.dataSize.toNat ≤ event.ring.length
  powerOfTwo : ∃ k, event.metadata.dataSize.toNat = 2 ^ k
  ordered : event.metadata.dataTail ≤ event.metadata.dataHead
  oneRound : event.metadata.dataHead.toNat - event.metadata.dataTail.toNat ≤ event.metadata.dataSize.toNat

/-- All of the pending records have been handled, and no others. -/
structure Parsed (event : PerfEvent) (batch : PerfBatch) (drained : Drained) : Prop where
  tail : drained.dataTail = event.metadata.dataHead
  handled : drained.handled = event.pending.1
  samples : drained.batch.samples = batch.samples ++ event.contributions.filterMap Contribution.sample?
  lost : drained.batch.lostSamples =
    saturatingAddU64 batch.lostSamples (event.contributions.map Contribution.lostCount).sum
  malformed : drained.batch.malformedRecords = batch.malformedRecords +
    (event.contributions.map Contribution.malformedCount).sum + event.pending.2.toNat

end PerfEvent

end RustProfile
