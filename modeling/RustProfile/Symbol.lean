import RustProfile.Profile

/-!
# Symbols

What the symbolizer returns for an address. The profile writers only call
`resolve`, so a symbolizer is a function from addresses.
-/

namespace RustProfile

/-! ## Paths -/

/-- A Unix path: any bytes. -/
structure PathBuf where
  bytes : List UInt8
  deriving DecidableEq, Repr

def isContinuation (b : UInt8) : Bool := 0x80 ≤ b && b ≤ 0xBF

/-- The number of bytes of a sequence by its first byte; 0 if none starts so. -/
def utf8Width (b : UInt8) : ℕ :=
  if b < 0x80 then 1
  else if 0xC2 ≤ b ∧ b ≤ 0xDF then 2
  else if 0xE0 ≤ b ∧ b ≤ 0xEF then 3
  else if 0xF0 ≤ b ∧ b ≤ 0xF4 then 4
  else 0

/-- The second byte may follow the first. -/
def isSecond (first second : UInt8) : Bool :=
  if first = 0xE0 then 0xA0 ≤ second && second ≤ 0xBF
  else if first = 0xED then 0x80 ≤ second && second ≤ 0x9F
  else if first = 0xF0 then 0x90 ≤ second && second ≤ 0xBF
  else if first = 0xF4 then 0x80 ≤ second && second ≤ 0x8F
  else isContinuation second

def replacementChar : Char := Char.ofNat 0xFFFD

/-- The character at the head of the bytes, and how many bytes it takes; an
ill-formed sequence is replaced as far as it could have been the start of one. -/
def decodeUtf8 : List UInt8 → Char × ℕ
  | [] => (replacementChar, 0)
  | first :: rest =>
    let bits (b : UInt8) : ℕ := b.toNat % 64
    match utf8Width first, rest with
    | 1, _ => (Char.ofNat first.toNat, 1)
    | 2, second :: _ =>
      if isSecond first second then (Char.ofNat (first.toNat % 32 * 64 + bits second), 2) else (replacementChar, 1)
    | 3, second :: third :: _ =>
      if !isSecond first second then (replacementChar, 1)
      else if isContinuation third then
        (Char.ofNat ((first.toNat % 16 * 64 + bits second) * 64 + bits third), 3)
      else (replacementChar, 2)
    | 3, [second] => (replacementChar, if isSecond first second then 2 else 1)
    | 4, second :: third :: fourth :: _ =>
      if !isSecond first second then (replacementChar, 1)
      else if !isContinuation third then (replacementChar, 2)
      else if isContinuation fourth then
        (Char.ofNat (((first.toNat % 8 * 64 + bits second) * 64 + bits third) * 64 + bits fourth), 4)
      else (replacementChar, 3)
    | 4, [second, third] =>
      (replacementChar, if !isSecond first second then 1 else if isContinuation third then 3 else 2)
    | 4, [second] => (replacementChar, if isSecond first second then 2 else 1)
    | _, _ => (replacementChar, 1)

def decodeLossy : ℕ → List UInt8 → List Char
  | 0, _ => []
  | _ + 1, [] => []
  | fuel + 1, first :: rest =>
    let (c, width) := decodeUtf8 (first :: rest)
    c :: decodeLossy fuel ((first :: rest).drop width)

/-- `Path::to_string_lossy`. -/
def PathBuf.toStringLossy (self : PathBuf) : String := String.ofList (decodeLossy self.bytes.length self.bytes)

/-- What `Path` compares and hashes instead of the bytes. -/
structure PathComponents where
  rooted : Bool
  components : List (List UInt8)
  deriving DecidableEq, Repr

/-- `Path::components`: repeated and trailing separators do not count, nor does `.` but at the start of a path. -/
def PathBuf.components (self : PathBuf) : PathComponents where
  rooted := self.bytes.head? = some 47
  components :=
    let parts := self.bytes.splitOn 47
    -- the first part of a rooted path is empty, so only a relative path keeps a leading `.`
    parts.head?.toList.filter (· ≠ []) ++ parts.tail.filter fun part => part ≠ [] ∧ part ≠ [46]

/-! ## Resolved locations -/

structure MappingInfo where
  start : UInt64
  limit : UInt64
  offset : UInt64
  relativeAddressAtStart : UInt32
  filename : PathBuf
  buildId : Option String
  deriving DecidableEq, Repr

/-- What the derived `Eq` and `Hash` of a `MappingInfo` look at. -/
structure MappingInfo.Key where
  start : UInt64
  limit : UInt64
  offset : UInt64
  relativeAddressAtStart : UInt32
  filename : PathComponents
  buildId : Option String
  deriving DecidableEq, Repr

def MappingInfo.key (self : MappingInfo) : MappingInfo.Key where
  start := self.start
  limit := self.limit
  offset := self.offset
  relativeAddressAtStart := self.relativeAddressAtStart
  filename := self.filename.components
  buildId := self.buildId

structure SymbolizedLine where
  function : String
  systemName : String
  filename : Option String
  line : ℤ
  deriving DecidableEq, Repr

structure ResolvedLocation where
  address : UInt64
  mapping : Option MappingInfo
  lines : List SymbolizedLine
  deriving DecidableEq, Repr

def ResolvedLocation.isSymbolized (self : ResolvedLocation) : Bool := !self.lines.isEmpty

/-- A symbolizer as the writers use it. -/
structure Symbolizer where
  resolve : UInt64 → ResolvedLocation

end RustProfile
