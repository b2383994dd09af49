import RustProfile.Lib.Triple
import RustProfile.OtlpConfig
import RustProfile.OtlpExporter

/-!
# The client of the exporter

`export` posts a payload until it is delivered or cannot be, five times at most,
and waits between two tries. `export_loop` exports one job after another. The
server, the clock and the files belong to the world, and so does the stop flag,
which another thread sets at any time and nobody clears.
-/

namespace RustProfile

namespace Record

namespace Client

open Otlp

def maxAttempts : ℕ := 5
def maxRetryDelay : ℕ := 30 * 10 ^ 9
def maxResponseBytes : ℕ := 1024 * 1024

/-! ## Requests and replies -/

/-- The kinds of errors of the HTTP library that are told apart. -/
inductive TransportErrorKind where
  | io
  | timeout
  | hostNotFound
  | protocol
  | connectionFailed
  | other
  deriving DecidableEq, Repr

structure TransportError where
  kind : TransportErrorKind
  text : String
  deriving DecidableEq, Repr

structure HttpRequest where
  endpoint : String
  headers : List (String × String)
  body : List UInt8
  deriving DecidableEq, Repr

structure HttpResponse where
  status : ℕ
  retryAfter : Option String
  readToVec : ℕ → Except String (List UInt8)

abbrev Reply := Except TransportError HttpResponse

structure ExportProfilesPartialSuccess where
  rejectedProfiles : ℤ
  errorMessage : String
  deriving DecidableEq, Repr

structure Codec where
  encode : ExportProfilesServiceRequest → List UInt8
  gzip : List UInt8 → Except String (List UInt8)
  decode : List UInt8 → Except String (Option ExportProfilesPartialSuccess)

structure SendError where
  retryable : Bool
  retryAfter : Option ℕ
  message : String
  deriving DecidableEq, Repr

def retryableTransportError (error : TransportError) : Bool :=
  match error.kind with
  | .io | .timeout | .hostNotFound | .protocol | .connectionFailed => true
  | .other => false

section
variable (codec : Codec) (config : OtlpConfig)

/-- The body, and whether it is compressed. -/
def prepareBody (payload : ExportPayload) : Except String (List UInt8 × Bool) :=
  match config.compression with
  | .none => .ok (codec.encode payload.request, false)
  | .gzip => (codec.gzip (codec.encode payload.request)).map fun body => (body, true)

def httpRequest (version : String) (body : List UInt8) (compressed : Bool) : HttpRequest where
  endpoint := config.endpoint
  headers :=
    [("Content-Type", "application/x-protobuf"), ("User-Agent", "rustprofile/" ++ version ++ " otlp-proto/1.11.0")] ++
      (if compressed then [("Content-Encoding", "gzip")] else []) ++ config.sentHeaders
  body := body

/-- What `send_once` makes of the reply: the rejected profiles and a message. -/
def readReply : Reply → Except SendError (ℤ × Option String)
  | .error error => .error ⟨retryableTransportError error, none, "OTLP request failed: " ++ error.text⟩
  | .ok response =>
    let retryAfter := (response.retryAfter.bind fun value => parseU64 value.toList).map (· * 10 ^ 9)
    if response.status ≠ 200 then
      .error ⟨response.status ∈ [408, 429, 502, 503, 504], retryAfter,
        "OTLP endpoint returned HTTP " ++ toString response.status⟩
    else
      match response.readToVec maxResponseBytes with
      | .error error => .error ⟨false, none, "failed to read OTLP response: " ++ error⟩
      | .ok [] => .ok (0, none)
      | .ok bytes =>
        match codec.decode bytes with
        | .error error => .error ⟨false, none, "failed to decode OTLP response: " ++ error⟩
        | .ok none => .ok (0, none)
        | .ok (some partialSuccess) =>
          .ok (partialSuccess.rejectedProfiles,
            if partialSuccess.errorMessage = "" then none else some partialSuccess.errorMessage)

end

/-! ## The world -/

/-- What is outside of the exporter's thread, with what holds of the stop flag and the clock. -/
structure ClientWorld (ω : Type) where
  stopping : ω → Bool
  clock : ω → ℕ
  load : ω → ω
  now : ω → ω
  subsecMillis : ω → ℕ × ω
  send : HttpRequest → ω → Reply × ω
  sleep : ℕ → ω → ω
  receive : ω → ω
  persist : ExportJob → ω → ω

/-- The flag stays set, and time goes on. -/
structure Passes {ω : Type} (world : ClientWorld ω) (before after : ω) : Prop where
  stops : world.stopping before = true → world.stopping after = true
  passes : world.clock before ≤ world.clock after

structure ClientWorld.Lawful {ω : Type} (world : ClientWorld ω) : Prop where
  load : ∀ w, Passes world w (world.load w)
  now : ∀ w, Passes world w (world.now w)
  subsecMillis : ∀ w, Passes world w (world.subsecMillis w).2
  send : ∀ request w, Passes world w (world.send request w).2
  sleep : ∀ duration w, Passes world w (world.sleep duration w)
  slept : ∀ duration w, world.clock w + duration ≤ world.clock (world.sleep duration w)
  receive : ∀ w, Passes world w (world.receive w)
  persist : ∀ job w, Passes world w (world.persist job w)

/-- What the thread does. Where it matters, whether the flag was set by then. -/
inductive ClientEvent where
  | sends (request : HttpRequest) (reply : Reply) (stopped : Bool)
  | pauses (delay : ℕ)
  | sleeps (duration : ℕ) (stopped : Bool)
  | persists (job : ExportJob)

/-- The world and what was done so far, which nothing reads. -/
structure ClientState (ω : Type) where
  outside : ω
  events : List ClientEvent := []

/-- An observation ends while a sleep still goes on. -/
inductive Unfinished where
  | unfinished
  deriving DecidableEq, Repr

abbrev Exporting (ω α : Type) := Attempt Unfinished (ClientState ω) α

section
variable {ω : Type} (world : ClientWorld ω)

/-- `stopping.load()`. -/
def loadStopping : Exporting ω Bool := do
  let state ← get
  set { state with outside := world.load state.outside }
  return world.stopping state.outside

def now : Exporting ω ℕ := do
  let state ← get
  set { state with outside := world.now state.outside }
  return world.clock state.outside

def subsecMillis : Exporting ω ℕ := do
  let state ← get
  let (millis, outside) := world.subsecMillis state.outside
  set { state with outside := outside }
  return millis

def send (request : HttpRequest) : Exporting ω Reply := do
  let state ← get
  let (reply, outside) := world.send request state.outside
  set ({ outside := outside
         events := state.events ++ [.sends request reply (world.stopping state.outside)] } : ClientState ω)
  return reply

def sleep (duration : ℕ) : Exporting ω Unit :=
  modify fun state =>
    { outside := world.sleep duration state.outside
      events := state.events ++ [.sleeps duration (world.stopping state.outside)] }

def receive : Exporting ω Unit := modify fun state => { state with outside := world.receive state.outside }

/-- `persist_export_diagnostics`. -/
def persist (job : ExportJob) : Exporting ω Unit :=
  modify fun state => { outside := world.persist job state.outside, events := state.events ++ [.persists job] }

/-! ## Waiting -/

def retryDelay (attempt : ℕ) : Exporting ω ℕ := do
  let base := min (500 * 2 ^ min (attempt - 1) 6) u64Max
  let jitter := (← subsecMillis world) % 250
  return saturatingAddU64 (min base 30000) jitter * 10 ^ 6

def delayOf (error : SendError) (attempt : ℕ) : Exporting ω ℕ := do
  match error.retryAfter with
  | some delay => return min delay maxRetryDelay
  | none => return min (← retryDelay world attempt) maxRetryDelay

def sleepRound (deadline : ℕ) : Exporting ω Bool := do
  if (← now world) < deadline then
    if ← loadStopping world then return false
    else
      sleep world (min (100 * 10 ^ 6) (deadline - (← now world)))
      return true
  else return false

/-- The loop is observed for `limit` turns. -/
def sleepInterruptibly (limit duration : ℕ) : Exporting ω Unit := do
  modify fun state => { state with events := state.events ++ [.pauses duration] }
  match checkedAdd (← now world) duration with
  | none => return
  | some deadline => Attempt.turns .unfinished (sleepRound world deadline) limit

/-! ## Exporting -/

/-- `attempt > 1 && stopping.load()`. -/
def interrupted (attempt : ℕ) : Exporting ω Bool := if 1 < attempt then loadStopping world else pure false

def givesUp (error : SendError) (attempt : ℕ) : Exporting ω Bool :=
  if !error.retryable ∨ attempt = maxAttempts then pure true else loadStopping world

variable (codec : Codec) (config : OtlpConfig) (limit : ℕ)

/-- The loop over the attempts that are left. -/
def attemptEach (request : HttpRequest) : List ℕ → ℕ → Option String → Exporting ω ExportOutcome
  | [], attempts, lastError => return ⟨attempts, 0, lastError, false⟩
  | attempt :: left, attempts, lastError => do
    if ← interrupted world attempt then return ⟨attempts, 0, lastError, false⟩
    else
      match readReply codec (← send world request) with
      | .ok (rejected, message) => return ⟨attempt, rejected, message, true⟩
      | .error error =>
        if ← givesUp world error attempt then return ⟨attempt, 0, some error.message, false⟩
        else
          sleepInterruptibly world limit (← delayOf world error attempt)
          attemptEach request left attempt (some error.message)

def exportPayload (version : String) (payload : ExportPayload) : Exporting ω ExportOutcome :=
  match prepareBody codec config payload with
  | .error message => return ⟨0, 0, some message, false⟩
  | .ok (body, compressed) =>
    attemptEach world codec limit (httpRequest config version body compressed) (List.range' 1 maxAttempts) 0 none

def exportJob (version : String) (job : ExportJob) : Exporting ω ExportJob := do
  if ← loadStopping world then
    return job.settle .failed (some "OTLP export was not flushed before shutdown")
  else return job.respond (← exportPayload world codec config limit version job.payload)

/-- The jobs come one after another until there are no more senders. -/
def exportLoop (version : String) : List ExportJob → Exporting ω Unit
  | [] => receive world
  | job :: jobs => do
    receive world
    persist world (← exportJob world codec config limit version job)
    exportLoop version jobs

end

end Client

end Record

end RustProfile
