import RustProfile.DockerBody
import RustProfile.HexDigits
import RustProfile.MapLines
import RustProfile.Target

/-!
# Asking Docker

`docker_inspect` writes one request to Docker's socket and reads until it is
closed. The container's reference is part of the path. The response is a head,
an empty line and a body, which may be in chunks.
-/

namespace RustProfile

namespace DockerApi

/-- `MAX_DOCKER_RESPONSE_BYTES`. -/
def maxDockerResponseBytes : ℕ := 4 * 1024 * 1024

/-- To slice out of range is a panic. -/
inductive DockerFault where
  | panic
  | error (error : TargetError)
  deriving DecidableEq, Repr

def bail {α : Type} (message : String) : Except DockerFault α := .error (.error ⟨none, message⟩)

def io {α : Type} (message : String) : Except IoErrorKind α → Except DockerFault α
  | .ok a => .ok a
  | .error kind => .error (.error ⟨some kind, message⟩)

def ofChunk {α : Type} : Except ChunkFault α → Except DockerFault α
  | .ok a => .ok a
  | .error .panic => .error .panic
  | .error (.error message) => bail message

/-! ## The request -/

/-- The characters that a path may have as they are. -/
def isPlain (byte : UInt8) : Bool :=
  (65 ≤ byte && byte ≤ 90) || (97 ≤ byte && byte ≤ 122) || (48 ≤ byte && byte ≤ 57) || byte = 45 || byte = 95 ||
    byte = 46

/-- `{:02X}`. -/
def upperHex (byte : UInt8) : List Char :=
  [(⟨⟨byte.toNat / 16, Nat.div_lt_of_lt_mul byte.toNat_lt⟩, true⟩ : HexDigit).char,
    (⟨⟨byte.toNat % 16, Nat.mod_lt _ (by decide)⟩, true⟩ : HexDigit).char]

def percentEncode (byte : UInt8) : List Char :=
  if isPlain byte then [Char.ofNat byte.toNat] else '%' :: upperHex byte

def percentEncodePath (value : String) : List Char := (utf8 value.toList).flatMap percentEncode

def dockerPath (reference : String) : List Char :=
  "/containers/".toList ++ percentEncodePath reference ++ "/json".toList

def dockerRequest (reference : String) : List UInt8 :=
  utf8 ("GET ".toList ++ dockerPath reference ++ " HTTP/1.1\r\nHost: docker\r\nConnection: close\r\n\r\n".toList)

/-! ## The response -/

def crlfCrlf : List UInt8 := [13, 10, 13, 10]

def parseU16 (s : List Char) : Option ℕ :=
  (parseDigits (if s.head? = some '+' then s.tail else s)).filter (· < 2 ^ 16)

/-- `str::eq_ignore_ascii_case`. -/
def eqIgnoreAsciiCase (a b : List Char) : Bool := a.map Char.toLower = b.map Char.toLower

/-- The second word of the first line. -/
def statusCode (head : List Char) : Option ℕ := do parseU16 (← (splitWhitespace (← (lines head).head?))[1]?)

/-- `chunked` is among the encodings. -/
def namesChunked (value : List Char) : Bool :=
  (value.splitOn ',').any fun encoding => eqIgnoreAsciiCase (trim (String.ofList encoding)).toList "chunked".toList

/-- `line.split_once(':').is_some_and(..)`. -/
def encodesChunked (line : List Char) : Bool :=
  (splitOnce [':'] line).any fun field =>
    eqIgnoreAsciiCase field.1 "transfer-encoding".toList && namesChunked field.2

def isChunked (head : List Char) : Bool := (lines head).any encodesChunked

section
variable {δ : Type} (decode : List UInt8 → Option δ)

/-- `serde_json::from_slice`. -/
def decodeBody (body : List UInt8) : Except DockerFault (Option δ) :=
  match decode body with
  | some inspect => .ok (some inspect)
  | none => bail "failed to decode Docker inspect response"

/-- What the bytes of a response say. A container that Docker does not know is `none`. -/
def readResponse (response : List UInt8) : Except DockerFault (Option δ) := do
  let split ←
    match windowPosition crlfCrlf response with
    | some split => .ok split
    | none => bail "Docker API returned an invalid HTTP response"
  let head ←
    match fromUtf8 (← ofChunk (chunkSlice response 0 split)) with
    | some head => .ok head.toList
    | none => bail "invalid Docker HTTP headers"
  match statusCode head with
  | none => bail "Docker API response is missing a status code"
  | some status =>
    if status = 404 then return none
    if status ≠ 200 then bail ("Docker API returned HTTP " ++ toString status)
    let body ← ofChunk (chunkSlice response (split + 4) response.length)
    decodeBody decode (← if isChunked head then ofChunk (decodeChunked body) else .ok body)

/-- What happens on the socket. Docker's answer to a request is what it sends until it closes or the read fails. -/
structure DockerSocket where
  path : String
  connect : Except IoErrorKind Unit
  setReadTimeout : Except IoErrorKind Unit
  setWriteTimeout : Except IoErrorKind Unit
  write : List UInt8 → Except IoErrorKind Unit
  answer : List UInt8 → List UInt8 × Option IoErrorKind

/-- `take(limit).read_to_end`. -/
def readToEnd (limit : ℕ) (answer : List UInt8 × Option IoErrorKind) : Except IoErrorKind (List UInt8) :=
  if limit ≤ answer.1.length then .ok (answer.1.take limit)
  else
    match answer.2 with
    | some kind => .error kind
    | none => .ok answer.1

def dockerInspect (socket : DockerSocket) (reference : String) : Except DockerFault (Option δ) := do
  io ("failed to connect to Docker socket " ++ socket.path) socket.connect
  io "failed to configure Docker socket read timeout" socket.setReadTimeout
  io "failed to configure Docker socket write timeout" socket.setWriteTimeout
  io "" (socket.write (dockerRequest reference))
  let response ← io "failed to read Docker API response"
    (readToEnd (maxDockerResponseBytes + 1) (socket.answer (dockerRequest reference)))
  if response.length > maxDockerResponseBytes then
    bail ("Docker API response exceeded " ++ toString maxDockerResponseBytes ++ " bytes")
  readResponse decode response

end

end DockerApi

end RustProfile
