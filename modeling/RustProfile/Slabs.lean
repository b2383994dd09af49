import RustProfile.Json
import RustProfile.Lib.Attempt
import RustProfile.Lib.Bytes
import Mathlib.Data.Finset.Basic

/-!
# Expanding slabs

A JSLB file is JSON in which an object of one field, `$s`, stands for a slab:
more JSON, or numbers. Expansion puts the slabs in place. A set of the slabs on
the way guards it against cycles, a depth against nesting and a budget against
slabs that stand in many places.
-/

namespace RustProfile

def maxExpandedValues : ℕ := 4000000

/-- How many depths there are, from 0 to 64. -/
def viewerLevels : ℕ := 65

inductive ElementType where
  | int8
  | uint8
  | int16
  | uint16
  | int32
  | uint32
  | int64
  | uint64
  | float32
  | float64
  deriving DecidableEq, Repr

namespace ElementType

def size : ElementType → ℕ
  | int8 => 1
  | uint8 => 1
  | int16 => 2
  | uint16 => 2
  | int32 => 4
  | uint32 => 4
  | int64 => 8
  | uint64 => 8
  | float32 => 4
  | float64 => 8

end ElementType

inductive SlabType where
  | json
  | typed (kind : ElementType)
  deriving DecidableEq, Repr

structure Slab where
  slabType : SlabType
  bytes : List UInt8
  deriving DecidableEq

inductive ExpandError where
  | nesting
  | jsonNesting
  | placeholder
  | cyclic (index : UInt64)
  | slabAt (text : String)
  | subJson
  | budget
  | nonFinite
  deriving DecidableEq, Repr

def ExpandError.text : ExpandError → String
  | nesting => "JSLB nesting exceeds the viewer limit"
  | jsonNesting => "JSON nesting exceeds the viewer limit"
  | placeholder => "invalid JSLB placeholder"
  | cyclic index => s!"cyclic JSLB placeholder {index}"
  | slabAt text => text
  | subJson => "invalid JSLB sub-JSON"
  | budget => "profile expands beyond the viewer value limit"
  | nonFinite => "JSLB contains a non-finite float"

/-- A parsed file: its slabs, how many elements they say they have, and their JSON, if it is any. -/
structure ParsedFile (F : Type) where
  slabAt : UInt64 → Except String Slab
  elementCount : Slab → ℕ
  fromSlice : List UInt8 → Option (Value F)

class FloatBits (F : Type) where
  fromF32 : ℕ → F
  fromF64 : ℕ → F

/-- The slabs being expanded, and the values that may still come. -/
structure ExpandState where
  active : Finset UInt64 := ∅
  remaining : ℕ := maxExpandedValues
  deriving DecidableEq

/-! ## Values of typed slabs -/

section
variable {F : Type}

/-- `Value::from`. -/
def Value.ofInt (n : ℤ) : Value F :=
  .number (if 0 ≤ n then .posInt (UInt64.ofNat n.toNat) else .negInt (Int64.ofInt n))

/-- `chunks_exact`. -/
def chunksExact (size : ℕ) (bytes : List UInt8) : List (List UInt8) :=
  (List.range (bytes.length / size)).map fun i => (bytes.drop (i * size)).take size

def signedLe (chunk : List UInt8) : ℤ :=
  let n := Bytes.toNat chunk
  if 2 * n < 256 ^ chunk.length then n else n - 256 ^ chunk.length

def signedChunks (size : ℕ) (bytes : List UInt8) : List (Value F) :=
  (chunksExact size bytes).map fun chunk => .ofInt (signedLe chunk)

def unsignedChunks (size : ℕ) (bytes : List UInt8) : List (Value F) :=
  (chunksExact size bytes).map fun chunk => .ofInt (Bytes.toNat chunk)

variable [F64 F] [FloatBits F]

def floatChunks (size : ℕ) (decode : ℕ → F) (bytes : List UInt8) : Except ExpandError (List (Value F)) :=
  (chunksExact size bytes).mapM fun chunk =>
    let value := decode (Bytes.toNat chunk)
    if F64.isFinite value then .ok (.number (.float value)) else .error .nonFinite

/-- A byte is a chunk of size 1. -/
def slabValues : ElementType → List UInt8 → Except ExpandError (List (Value F))
  | .int8, bytes => .ok (signedChunks 1 bytes)
  | .uint8, bytes => .ok (unsignedChunks 1 bytes)
  | .int16, bytes => .ok (signedChunks 2 bytes)
  | .uint16, bytes => .ok (unsignedChunks 2 bytes)
  | .int32, bytes => .ok (signedChunks 4 bytes)
  | .uint32, bytes => .ok (unsignedChunks 4 bytes)
  | .int64, bytes => .ok (signedChunks 8 bytes)
  | .uint64, bytes => .ok (unsignedChunks 8 bytes)
  | .float32, bytes => floatChunks 4 FloatBits.fromF32 bytes
  | .float64, bytes => floatChunks 8 FloatBits.fromF64 bytes

/-! ## Expansion -/

/-- `ExpansionBudget::consume`. -/
def consume (remaining count : ℕ) : Except ExpandError ℕ :=
  if count ≤ remaining then .ok (remaining - count) else .error .budget

def consumeExpanded (count : ℕ) : Attempt ExpandError ExpandState Unit := do
  let state ← get
  let remaining ← Attempt.ofExcept (consume state.remaining count)
  set { state with remaining }

/-- `active.insert`, which must find the slab new. -/
def enter (index : UInt64) : Attempt ExpandError ExpandState Unit := do
  let state ← get
  if index ∈ state.active then throw (.cyclic index) else set { state with active := insert index state.active }

def leave (index : UInt64) : Attempt ExpandError ExpandState Unit :=
  modify fun state => { state with active := state.active.erase index }

/-- What stands in the field of a placeholder. -/
def Value.placeholder : Value F → Option (Value F)
  | .object [(name, inner)] => if name = "$s" then some inner else none
  | _ => none

/-- What stands in a slab, with `expand` for the JSON of it. -/
def expandSlab (parsed : ParsedFile F) (expand : Value F → Attempt ExpandError ExpandState (Value F)) (index : UInt64) :
    Attempt ExpandError ExpandState (Value F) := do
  let slab ← Attempt.ofExcept ((parsed.slabAt index).mapError .slabAt)
  match slab.slabType with
  | .json => do
    let value ← Attempt.ofOption (parsed.fromSlice slab.bytes) .subJson
    expand value
  | .typed kind => do
    consumeExpanded (parsed.elementCount slab)
    return .array (← Attempt.ofExcept (slabValues kind slab.bytes))

/-- `levels` is how many depths are left, that is `viewerLevels - depth`. -/
def expandSlabs (parsed : ParsedFile F) : (levels : ℕ) → Value F → Attempt ExpandError ExpandState (Value F)
  | 0, _ => throw .nesting
  | levels + 1, value =>
    match value.placeholder with
    | some inner => do
      let index ← Attempt.ofOption inner.asU64 .placeholder
      enter index
      let expanded ← expandSlab parsed (expandSlabs parsed levels) index
      leave index
      return expanded
    | none =>
      match value with
      | .object fields => do
        consumeExpanded fields.length
        return .object (← fields.mapM fun field => return (field.1, ← expandSlabs parsed levels field.2))
      | .array values => do
        consumeExpanded values.length
        return .array (← values.mapM fun value => expandSlabs parsed levels value)
      | value => do
        consumeExpanded 1
        return value

end

/-! ## Plain JSON -/

section
variable {F : Type}

def consumeValidated (count : ℕ) : Attempt ExpandError ℕ Unit := do
  let remaining ← Attempt.ofExcept (consume (← get) count)
  set remaining

/-- `levels` is how many depths are left. -/
def validateValueBudget : (levels : ℕ) → Value F → Attempt ExpandError ℕ Unit
  | 0, _ => throw .jsonNesting
  | levels + 1, .object fields => do
    consumeValidated fields.length
    fields.forM fun field => validateValueBudget levels field.2
  | levels + 1, .array values => do
    consumeValidated values.length
    values.forM fun value => validateValueBudget levels value
  | _ + 1, _ => consumeValidated 1

end

end RustProfile
