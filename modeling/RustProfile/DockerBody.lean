import RustProfile.HeapRaw
import RustProfile.JitSymbols
import RustProfile.LoadBias
import RustProfile.Lib.Fallible
import RustProfile.Lib.Frames

/-!
# Chunked bodies from Docker

Docker answers over its socket, and sends a body whose size it does not know in
chunks: each has a line with its size, the bytes and a line end. A chunk of
size 0 ends the body.
-/

namespace RustProfile

/-- What stops the decoder. To slice out of range is a panic. -/
inductive ChunkFault where
  | panic
  | error (message : String)
  deriving DecidableEq, Repr

def chunkSlice (bytes : List UInt8) (start stop : ℕ) : Except ChunkFault (List UInt8) :=
  match sliceBytes bytes start stop with
  | some slice => .ok slice
  | none => .error .panic

def fromUtf8 (bytes : List UInt8) : Option String := String.fromUTF8? bytes.toByteArray

def crlf : List UInt8 := [13, 10]

/-- Where the pattern stands first: `windows(n).position`. -/
def windowPosition (pattern : List UInt8) : List UInt8 → Option ℕ
  | [] => none
  | b :: bytes => if pattern <+: b :: bytes then some 0 else (windowPosition pattern bytes).map (· + 1)

/-- The size in a line, before the extensions. -/
def lineSize (line : List UInt8) : Except ChunkFault UInt64 := do
  let text ← Except.context (fromUtf8 line) (.error "invalid Docker chunk size")
  let size := (text.toList.splitOn ';').head?.getD []
  Except.context (fromHex (trim (String.ofList size)).toList) (.error "invalid Docker chunk size")

/-- The size in the first line, and what follows the line. -/
def chunkSize (encoded : List UInt8) : Except ChunkFault (UInt64 × List UInt8) := do
  let lineEnd ← Except.context (windowPosition crlf encoded) (.error "invalid chunked Docker response")
  let size ← lineSize (← chunkSlice encoded 0 lineEnd)
  return (size, ← chunkSlice encoded (lineEnd + 2) encoded.length)

/-- The bytes of a chunk, and what follows it. -/
def chunkData (size : UInt64) (encoded : List UInt8) : Except ChunkFault (List UInt8 × List UInt8) := do
  let chunkEnd ← Except.context (checkedAddU64 size 2) (.error "Docker chunk size is too large")
  if encoded.length < chunkEnd.toNat then throw (.error "truncated chunked Docker response")
  let ending ← chunkSlice encoded size.toNat chunkEnd.toNat
  if ending ≠ crlf then throw (.error "truncated chunked Docker response")
  let data ← chunkSlice encoded 0 size.toNat
  let rest ← chunkSlice encoded chunkEnd.toNat encoded.length
  return (data, rest)

def readChunk (encoded : List UInt8) : Except ChunkFault (Option (List UInt8 × List UInt8)) := do
  let (size, rest) ← chunkSize encoded
  if size = 0 then return none
  return some (← chunkData size rest)

/-! ## What the parts of a turn do -/

theorem chunkSlice_of_le {bytes : List UInt8} {start stop : ℕ} (h : start ≤ stop) (h' : stop ≤ bytes.length) :
    chunkSlice bytes start stop = .ok ((bytes.drop start).take (stop - start)) := by
  unfold chunkSlice sliceBytes
  rw [if_pos ⟨h, h'⟩]

theorem chunkSlice_zero {bytes : List UInt8} {stop : ℕ} (h : stop ≤ bytes.length) :
    chunkSlice bytes 0 stop = .ok (bytes.take stop) := chunkSlice_of_le (Nat.zero_le stop) h

theorem chunkSlice_length {bytes : List UInt8} {start : ℕ} (h : start ≤ bytes.length) :
    chunkSlice bytes start bytes.length = .ok (bytes.drop start) := by
  rw [chunkSlice_of_le h (le_refl _), List.take_of_length_le (by rw [List.length_drop])]

theorem windowPosition_eq_some {pattern : List UInt8} : ∀ {bytes : List UInt8} {n : ℕ},
    windowPosition pattern bytes = some n → n + pattern.length ≤ bytes.length
  | [], n, h => by cases h
  | b :: bytes, n, h => by
    unfold windowPosition at h
    split at h
    · rename_i hstarts
      cases h
      rw [Nat.zero_add]
      exact hstarts.length_le
    · obtain ⟨m, hm, rfl⟩ := Option.map_eq_some_iff.mp h
      have hle := windowPosition_eq_some hm
      rw [List.length_cons]
      omega

theorem chunkSize_none {encoded : List UInt8} (h : windowPosition crlf encoded = none) :
    chunkSize encoded = .error (.error "invalid chunked Docker response") := by
  unfold chunkSize
  rw [h]
  rfl

theorem chunkSize_some {encoded : List UInt8} {n : ℕ} (h : windowPosition crlf encoded = some n) :
    chunkSize encoded = (lineSize (encoded.take n)).map fun size => (size, encoded.drop (n + 2)) := by
  have hle : n + 2 ≤ encoded.length := windowPosition_eq_some h
  unfold chunkSize
  rw [h, Except.context, Except.ok_bind, chunkSlice_zero (by omega), Except.ok_bind, chunkSlice_length hle]
  cases lineSize (encoded.take n) <;> rfl

theorem chunkData_eq (size : UInt64) (encoded : List UInt8) : chunkData size encoded =
    if size.toNat + 2 ≤ u64Max then
      if size.toNat + 2 ≤ encoded.length ∧ (encoded.drop size.toNat).take 2 = crlf then
        .ok (encoded.take size.toNat, encoded.drop (size.toNat + 2))
      else .error (.error "truncated chunked Docker response")
    else .error (.error "Docker chunk size is too large") := by
  have htwo : (2 : UInt64).toNat = 2 := rfl
  unfold chunkData checkedAddU64
  rw [htwo]
  by_cases hmax : size.toNat + 2 ≤ u64Max
  swap
  · rw [if_neg hmax, if_neg hmax]
    rfl
  have hadd : (size + 2).toNat = size.toNat + 2 := by
    rw [UInt64.toNat_add, htwo, Nat.mod_eq_of_lt (Nat.lt_of_le_of_lt hmax (by decide))]
  rw [if_pos hmax, if_pos hmax, Except.context, Except.ok_bind, hadd]
  by_cases hlength : size.toNat + 2 ≤ encoded.length
  swap
  · rw [if_pos (Nat.lt_of_not_le hlength), if_neg fun h => hlength h.1]
    rfl
  rw [if_neg (Nat.not_lt.mpr hlength), chunkSlice_of_le (Nat.le_add_right _ _) hlength, Nat.add_sub_cancel_left,
    chunkSlice_zero (by omega), chunkSlice_length hlength]
  by_cases hending : (encoded.drop size.toNat).take 2 = crlf
  · rw [if_pos ⟨hlength, hending⟩, hending]
    rfl
  · rw [if_neg fun h => hending h.2]
    simp only [Except.ok_bind]
    rw [if_pos hending]
    rfl

/-! ## The decoder -/

theorem readChunk_shorter {encoded data rest : List UInt8} (h : readChunk encoded = .ok (some (data, rest))) :
    rest.length < encoded.length := by
  unfold readChunk at h
  obtain ⟨⟨size, after⟩, hsize, h⟩ := Except.bind_eq_ok.mp h
  dsimp only at h
  split at h
  · cases h
  obtain ⟨chunk, hdata, h⟩ := Except.bind_eq_ok.mp h
  cases h
  have hrest : rest.length < after.length := by
    rw [chunkData_eq] at hdata
    split at hdata
    · split at hdata
      · rename_i hwhole
        cases hdata
        rw [List.length_drop]
        omega
      · cases hdata
    · cases hdata
  have hafter : after.length ≤ encoded.length := by
    cases hline : windowPosition crlf encoded with
    | none =>
      rw [chunkSize_none hline] at hsize
      cases hsize
    | some n =>
      rw [chunkSize_some hline] at hsize
      cases hvalue : lineSize (encoded.take n) with
      | error e =>
        rw [hvalue] at hsize
        cases hsize
      | ok value =>
        rw [hvalue] at hsize
        cases hsize
        rw [List.length_drop]
        omega
  exact Nat.lt_of_lt_of_le hrest hafter

/-- The frames of a body. -/
def chunkReader : FrameReader ChunkFault UInt8 (List UInt8) where
  read := readChunk
  shorter := readChunk_shorter

def decodeChunked (encoded : List UInt8) : Except ChunkFault (List UInt8) := chunkReader.fold (· ++ ·) [] encoded

end RustProfile
