import RustProfile.CpuWindow
import RustProfile.Lib.Bytes

/-!
# Perf records

A ring hands the collector records of a kind and a body. `parseSample` reads the
body of a sample with a cursor; a frame-pointer sample has a call chain in which
the kernel marks where a context starts.
-/

namespace RustProfile

/-- The bytes that a cursor has not read yet. -/
structure Cursor where
  remaining : List UInt8

namespace Cursor

variable (self : Cursor)

def bytes (length : ℕ) : Option (List UInt8 × Cursor) :=
  (Bytes.take? length self.remaining).map fun taken => (taken.1, ⟨taken.2⟩)

def u32 : Option (UInt32 × Cursor) := (self.bytes 4).map fun taken => (UInt32.ofNat (Bytes.toNat taken.1), taken.2)

def u64 : Option (UInt64 × Cursor) := (self.bytes 8).map fun taken => (UInt64.ofNat (Bytes.toNat taken.1), taken.2)

end Cursor

inductive UnwindMode where
  | auto
  | fp
  | dwarf
  deriving DecidableEq, Repr

/-- From here on a word of a call chain is no address. -/
def perfContextMax : UInt64 := 0xFFFFFFFFFFFFF001

def perfSampleRegsAbiNone : UInt64 := 0

/-- Read `count` words and keep the addresses. -/
def readAddresses : ℕ → Cursor → Option (List UInt64)
  | 0, _ => some []
  | count + 1, cursor => do
    let (address, cursor) ← cursor.u64
    let frames ← readAddresses count cursor
    return if address < perfContextMax then address :: frames else frames

def framePointerData (ip : UInt64) (cursor : Cursor) : Option PerfSampleData := do
  let (words, cursor) ← cursor.u64
  let frames ← readAddresses (min words.toNat defaultMaxFrames) cursor
  let frames := if frames.head? ≠ some ip then ip :: frames else frames
  return .framePointer (frames.take defaultMaxFrames)

/-- What `decode_registers` has found so far. -/
structure FoundRegisters where
  ip : UInt64
  sp : Option UInt64 := none
  fp : Option UInt64 := none

/-- The x86-64 registers of the mask, by the number of their bit. -/
def decodeRegisters (registerMask : UInt64) : List ℕ → Cursor → FoundRegisters → Option (RawRegisters × Cursor)
  | [], cursor, found => do
    let sp ← found.sp
    let fp ← found.fp
    return ({ ip := found.ip, sp := sp, fp := fp, lr := 0 }, cursor)
  | bit :: bits, cursor, found =>
    if registerMask &&& (1 <<< UInt64.ofNat bit) = 0 then decodeRegisters registerMask bits cursor found
    else do
      let (value, cursor) ← cursor.u64
      decodeRegisters registerMask bits cursor <|
        match bit with
        | 6 => { found with fp := some value }
        | 7 => { found with sp := some value }
        | 8 => { found with ip := value }
        | _ => found

def dwarfData (ip registerMask : UInt64) (cursor : Cursor) : Option PerfSampleData := do
  let (abi, cursor) ← cursor.u64
  if abi = perfSampleRegsAbiNone then none
  else
    let (registers, cursor) ← decodeRegisters registerMask (List.range 64) cursor { ip := ip }
    let (requestedSize, cursor) ← cursor.u64
    let (stack, cursor) ← cursor.bytes requestedSize.toNat
    let (dynamicSize, _) ← cursor.u64
    return .dwarf { registers := registers, bytes := stack.take (min dynamicSize.toNat stack.length) }

def sampleData (mode : UnwindMode) (ip registerMask : UInt64) (cursor : Cursor) : Option PerfSampleData :=
  match mode with
  | .fp => framePointerData ip cursor
  | .dwarf => dwarfData ip registerMask cursor
  | .auto => none

def parseSample (bytes : List UInt8) (mode : UnwindMode) (registerMask : UInt64) : Option PerfSample := do
  let (ip, cursor) ← Cursor.u64 ⟨bytes⟩
  let (pid, cursor) ← cursor.u32
  let (tid, cursor) ← cursor.u32
  let (time, cursor) ← cursor.u64
  let (period, cursor) ← cursor.u64
  let data ← sampleData mode ip registerMask cursor
  return { pid := pid, tid := tid, time := time.toNat, period := period.toNat, data := data }

/-! ## The kernel's layout -/

/-- The body of a frame-pointer sample. -/
structure SampleBody where
  ip : UInt64
  pid : UInt32
  tid : UInt32
  time : UInt64
  period : UInt64
  words : List UInt64
  counted : words.length < 2 ^ 64

def encodeWords (words : List UInt64) : List UInt8 := words.flatMap fun word => Bytes.ofNat 8 word.toNat

def SampleBody.bytes (self : SampleBody) : List UInt8 :=
  Bytes.ofNat 8 self.ip.toNat ++ (Bytes.ofNat 4 self.pid.toNat ++ (Bytes.ofNat 4 self.tid.toNat ++
    (Bytes.ofNat 8 self.time.toNat ++ (Bytes.ofNat 8 self.period.toNat ++
      (Bytes.ofNat 8 self.words.length ++ encodeWords self.words)))))

/-- The user addresses of a call chain. -/
def userAddresses (words : List UInt64) : List UInt64 := words.filter (· < perfContextMax)

/-- `ip` and what follows it. -/
def withHead (ip : UInt64) (frames : List UInt64) : List UInt64 :=
  if frames.head? = some ip then frames else ip :: frames

/-- The first frames of the call chain. -/
def SampleBody.userFrames (self : SampleBody) : List UInt64 :=
  (withHead self.ip (userAddresses self.words)).take defaultMaxFrames

end RustProfile
