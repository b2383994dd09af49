import RustProfile.Gallery
import RustProfile.Lib.Semaphore
import RustProfile.ServeGallery

/-!
# The server

A connection's task owns one of the connections' permits and handles one request
after the other. What reads profiles is done by a blocking task that owns the
only permit for it: it keeps the permit until it ends, also when the connection
that waits for it is gone.
-/

namespace RustProfile

namespace Serve

open Gallery

def maxRequestBytes : ℕ := 8 * 1024 * 1024
def maxResponseBytes : ℕ := 32 * 1024 * 1024
def maxConnections : ℕ := 32
def maxGalleryJobs : ℕ := 1

/-! ## The configuration -/

structure ServeArgs where
  profile : Option GalleryPath := none
  directory : Option String := none
  /-- `args.listen.ip().is_loopback()` -/
  loopback : Bool
  bearerToken : Option String := none
  corsOrigin : Option String := none

structure ServeHost where
  isFile : GalleryPath → Bool
  isDir : String → Bool
  metadata : GalleryPath → Except String ℕ
  display : GalleryPath → String
  headerValue : String → Bool

/-- `is_none_or(str::is_empty)`. -/
def tokenMissing (token : Option String) : Bool := token.all (· = "")

/-- A profile that is served as it is. -/
structure LegacyProfile where
  path : GalleryPath
  isGzip : Bool
  isJslb : Bool
  deriving DecidableEq, Repr

/-- A server that listens to more than the loopback has a token. -/
structure ServeConfig where
  source : Source
  legacyProfile : Option LegacyProfile
  loopback : Bool
  token : Option String
  corsOrigin : Option String
  guarded : loopback = true ∨ tokenMissing token = false

/-- `Path::extension` of a path's last component. -/
def extension (name : List UInt8) : Option (List UInt8) :=
  if name = utf8 "..".toList then none
  else
    match name.reverse.span (· ≠ 46) with
    | (_, []) => none
    | (_, [_]) => none
    | (after, _ :: _ :: _) => some after.reverse

def legacyProfileOf (path : GalleryPath) : LegacyProfile where
  path := path
  isGzip := path.fileName.bind extension = some (utf8 "gz".toList)
  isJslb := path.fileName.any fun name => utf8 ".jslb.gz".toList <:+ name

def checkProfile (host : ServeHost) (path : GalleryPath) : Except String Unit := do
  if !host.isFile path then throw ("profile " ++ host.display path ++ " does not exist or is not a file")
  let size ← host.metadata path
  if size > maxProfileBytes then
    throw ("profile " ++ host.display path ++ " is " ++ toString size ++ " bytes, exceeding the " ++
      toString maxProfileBytes ++ " byte serve limit")

def checkDirectory (host : ServeHost) (directory : String) : Except String Unit := do
  if !host.isDir directory then throw ("directory " ++ directory ++ " does not exist or is not a directory")

def sourceOf : Option GalleryPath → Option String → Except String Source
  | some path, none => .ok (.profile path)
  | none, some directory => .ok (.directory directory)
  | _, _ => .error "exactly one of --profile or --directory is required"

/-- `run`, until it listens. -/
def serveConfig (host : ServeHost) (args : ServeArgs) : Except String ServeConfig := do
  args.profile.forM (checkProfile host)
  args.directory.forM (checkDirectory host)
  if hguarded : args.loopback = true ∨ tokenMissing args.bearerToken = false then
    let source ← sourceOf args.profile args.directory
    if !args.corsOrigin.all host.headerValue then throw "--cors-origin is not a valid HTTP header value"
    return ⟨source, args.profile.map legacyProfileOf, args.loopback, args.bearerToken, args.corsOrigin, hguarded⟩
  else throw "--bearer-token is required when --listen is not loopback"

/-! ## Requests and responses -/

inductive Method where
  | get
  | post
  | options
  | other
  deriving DecidableEq, Repr

structure Request where
  method : Method
  path : String
  /-- The header, if it is text. -/
  authorization : Option String := none
  /-- The upper bound of the body's size hint. -/
  sizeHint : Option ℕ := none
  deriving DecidableEq, Repr

structure Response where
  status : ℕ := 200
  headers : Table String String := ∅
  body : List UInt8 := []

def Response.insert (self : Response) (name value : String) : Response :=
  { self with headers := self.headers.insert name value }

def policy : String :=
  "default-src 'self'; connect-src 'self'; img-src 'none'; object-src 'none'; frame-ancestors 'none'; " ++
    "style-src 'unsafe-inline'; script-src 'unsafe-inline'"

def baseResponse (config : ServeConfig) : Response :=
  let response := (({} : Response).insert "x-content-type-options" "nosniff").insert "referrer-policy" "no-referrer"
  let response := response.insert "content-security-policy" policy
  match config.corsOrigin with
  | some origin => response.insert "access-control-allow-origin" origin
  | none => response

def authorized (request : Request) (token : Option String) : Bool :=
  match token with
  | none => true
  | some token => request.authorization = some ("Bearer " ++ token)

structure BoundedBuffer (limit : ℕ) where
  bytes : List UInt8
  fits : bytes.length ≤ limit

namespace BoundedBuffer

variable {limit : ℕ}

def new : BoundedBuffer limit := ⟨[], Nat.zero_le limit⟩

def write (self : BoundedBuffer limit) (buffer : List UInt8) : Option (BoundedBuffer limit) :=
  if h : self.bytes.length + buffer.length ≤ limit then
    some ⟨self.bytes ++ buffer, by rw [List.length_append]; exact h⟩
  else none

/-- What a serializer writes piece by piece. -/
def writeAll : BoundedBuffer limit → List (List UInt8) → Option (BoundedBuffer limit)
  | self, [] => some self
  | self, buffer :: buffers => (self.write buffer).bind fun self => self.writeAll buffers

end BoundedBuffer

def serialized (pieces : List (List UInt8)) : Option (List UInt8) :=
  ((BoundedBuffer.new : BoundedBuffer maxResponseBytes).writeAll pieces).map (·.bytes)

namespace Response

def setJson (self : Response) (pieces : List (List UInt8)) : Response :=
  match serialized pieces with
  | some bytes =>
    ({ self with body := bytes }.insert "content-type" "application/json").insert "cache-control" "no-store"
  | none => { self with status := 500 }

def setError (self : Response) (status : ℕ) (error : String) : Response :=
  { self with status := status, body := utf8 (error ++ "\n").toList }.insert "content-type" "text/plain; charset=utf-8"

def setBusy (self : Response) : Response :=
  ({ self with status := 503, body := utf8 "profile decoder is busy\n".toList }.insert "retry-after" "1").insert
    "content-type" "text/plain; charset=utf-8"

def setProfile (self : Response) (profile : LegacyProfile) (bytes : List UInt8) : Response :=
  let response := { self with body := bytes }.insert "content-type"
    (if profile.isJslb then "application/octet-stream" else "application/json")
  if profile.isGzip then response.insert "content-encoding" "gzip" else response

/-- The result of a symbol query, or nothing if it took too long. -/
def setSymbols (self : Response) : Option (List (List UInt8)) → Response
  | some pieces =>
    match serialized pieces with
    | some bytes => { self with body := bytes }.insert "content-type" "application/json"
    | none => { self with status := 500 }
  | none => { self with status := 504 }

end Response

/-! ## The blocking tasks -/

inductive GalleryJob where
  | readProfile (profile : LegacyProfile)
  | listEntries
  | decodeProfile (id : String)
  deriving DecidableEq, Repr

inductive JobEnd (F : Type) where
  | read (profile : List UInt8)
  | listed (entries : List ProfileEntry)
  | decoded (entry : ProfileEntry) (profile : ViewerProfile F)
  | missing
  | failed (error : String)
  | panicked (error : String)

/-- The files while a task runs, what decodes a profile and what `serde_json` writes. -/
structure ServeFiles (F : Type) extends GalleryFiles F where
  read : GalleryPath → Except String (List UInt8)
  decode : ProfileEntry → Except String (ViewerProfile F)

structure Serializer (F : Type) where
  entries : List ProfileEntry → List (List UInt8)
  profile : ProfileEntry → ViewerProfile F → List (List UInt8)

section
variable {F : Type}

def GalleryJob.perform (config : ServeConfig) (files : ServeFiles F) : GalleryJob → JobEnd F
  | .readProfile profile =>
    match files.read profile.path with
    | .ok bytes => .read bytes
    | .error error => .failed error
  | .listEntries =>
    match entries files.toGalleryFiles config.source with
    | .ok entries => .listed entries
    | .error error => .failed error
  | .decodeProfile id =>
    match find files.toGalleryFiles config.source id with
    | .error error => .failed error
    | .ok none => .missing
    | .ok (some entry) =>
      match files.decode entry with
      | .ok profile => .decoded entry profile
      | .error error => .failed error

variable (serializer : Serializer F) (viewerHtml : List UInt8) (config : ServeConfig)

def jobResponse : GalleryJob → JobEnd F → Response
  | .readProfile profile, .read bytes => (baseResponse config).setProfile profile bytes
  | _, .listed entries => (baseResponse config).setJson (serializer.entries entries)
  | _, .decoded entry profile => (baseResponse config).setJson (serializer.profile entry profile)
  | .decodeProfile _, .failed error => (baseResponse config).setError 422 error
  | _, .failed error => (baseResponse config).setError 500 error
  | _, .panicked error => (baseResponse config).setError 500 error
  | _, _ => { baseResponse config with status := 404 }

/-! ## Handling a request -/

/-- How far a request is handled at once. -/
inductive Handled where
  | answer (response : Response)
  | job (job : GalleryJob)
  | collect

def preflight : Response :=
  if config.corsOrigin.isSome then
    ({ baseResponse config with status := 204 }.insert "access-control-allow-methods" "GET, POST, OPTIONS").insert
      "access-control-allow-headers" "authorization, content-type"
  else { baseResponse config with status := 405 }

def getRequest (path : String) : Handled :=
  if path = "/" then
    .answer (({ baseResponse config with body := viewerHtml }.insert "content-type" "text/html; charset=utf-8").insert
      "cache-control" "no-store")
  else if path = "/healthz" then
    .answer ({ baseResponse config with body := utf8 "ok\n".toList }.insert "content-type" "text/plain; charset=utf-8")
  else if path = "/profile.json" then
    match config.legacyProfile with
    | some profile => .job (.readProfile profile)
    | none => .answer { baseResponse config with status := 404 }
  else if path = "/api/profiles" then .job .listEntries
  else
    match stripStart "/api/profile/".toList path.toList with
    | some id => .job (.decodeProfile (String.ofList id))
    | none => .answer { baseResponse config with status := 404 }

def handle (request : Request) : Handled :=
  if request.method = .options then .answer (preflight config)
  else if authorized request config.token = false then .answer { baseResponse config with status := 401 }
  else
    match request.method with
    | .get => getRequest viewerHtml config request.path
    | .post =>
      if request.sizeHint.any (· > maxRequestBytes) then .answer { baseResponse config with status := 413 }
      else .collect
    | _ => .answer { baseResponse config with status := 404 }

/-! ## Connections -/

inductive Phase where
  | idle
  | collecting (request : Request) (received : List UInt8)
  | querying (request : Request) (body : String)
  | waiting (request : Request) (job : ℕ)
  deriving DecidableEq, Repr

/-- How a task ran: to its end, on the files that it found, or until it panicked. -/
inductive TaskRun (F : Type) where
  | ends (files : ServeFiles F)
  | panics (error : String)

def TaskRun.jobEnd (job : GalleryJob) : TaskRun F → JobEnd F
  | .ends files => job.perform config files
  | .panics error => .panicked error

/-- A request with its response, and the task whose result that is. -/
structure Answered where
  request : Request
  response : Response
  task : Option ℕ

structure ServeState (F : Type) where
  connections : Semaphore maxConnections ℕ Phase := .new
  galleryJobs : Semaphore maxGalleryJobs ℕ (Request × GalleryJob) := .new
  accepted : ℕ := 0
  spawned : ℕ := 0
  ended : Table ℕ (Request × GalleryJob × TaskRun F) := ∅
  /-- The requests that a task or a symbol query was started for. -/
  worked : List Request := []
  answered : List Answered := []

inductive ServeStep (F : Type) where
  | accept
  | request (connection : ℕ) (request : Request)
  | frame (connection : ℕ) (data : List UInt8)
  | bodyEnds (connection : ℕ)
  | bodyFails (connection : ℕ)
  | queryEnds (connection : ℕ) (result : Option (List (List UInt8)))
  | jobEnds (job : ℕ) (files : ServeFiles F)
  | jobPanics (job : ℕ) (error : String)
  | deliver (connection : ℕ)
  | close (connection : ℕ)

namespace ServeState

variable (s : ServeState F)

def phase (connection : ℕ) : Option Phase := s.connections.holders.lookup connection

def goesOn (connection : ℕ) (phase : Phase) : ServeState F :=
  { s with connections := s.connections.goOn connection phase }

def answers (connection : ℕ) (answer : Answered) : ServeState F :=
  { s.goesOn connection .idle with answered := s.answered ++ [answer] }

def handles (connection : ℕ) (request : Request) : ServeState F :=
  match handle viewerHtml config request with
  | .answer response => s.answers connection ⟨request, response, none⟩
  | .collect => s.goesOn connection (.collecting request [])
  | .job job =>
    match s.galleryJobs.tryAcquire s.spawned (request, job) with
    | none => s.answers connection ⟨request, (baseResponse config).setBusy, none⟩
    | some galleryJobs =>
      { s.goesOn connection (.waiting request s.spawned) with
        galleryJobs := galleryJobs
        spawned := s.spawned + 1
        worked := s.worked ++ [request] }

/-- `Limited` ends the body at the first frame that it has no room for. -/
def receives (connection : ℕ) (request : Request) (received data : List UInt8) : ServeState F :=
  if received.length + data.length > maxRequestBytes then
    s.answers connection ⟨request, { baseResponse config with status := 413 }, none⟩
  else s.goesOn connection (.collecting request (received ++ data))

def collected (connection : ℕ) (request : Request) (body : List UInt8) : ServeState F :=
  if body.length > maxRequestBytes then
    s.answers connection ⟨request, { baseResponse config with status := 413 }, none⟩
  else
    match fromUtf8 body with
    | some body => { s.goesOn connection (.querying request body) with worked := s.worked ++ [request] }
    | none => s.answers connection ⟨request, { baseResponse config with status := 400 }, none⟩

/-- A task ends and drops its permit. -/
def endsJob (job : ℕ) (asked : Request × GalleryJob) (taskRun : TaskRun F) : ServeState F :=
  { s with
    galleryJobs := s.galleryJobs.release job
    ended := s.ended.insert job (asked.1, asked.2, taskRun) }

def step : ServeStep F → Option (ServeState F)
  | .accept =>
    match s.connections.tryAcquire s.accepted .idle with
    | some connections => some { s with connections := connections, accepted := s.accepted + 1 }
    -- the stream is dropped
    | none => some { s with accepted := s.accepted + 1 }
  | .request connection request =>
    match s.phase connection with
    | some .idle => some (s.handles viewerHtml config connection request)
    | _ => none
  | .frame connection data =>
    match s.phase connection with
    | some (.collecting request received) => some (s.receives config connection request received data)
    | _ => none
  | .bodyEnds connection =>
    match s.phase connection with
    | some (.collecting request received) => some (s.collected config connection request received)
    | _ => none
  | .bodyFails connection =>
    match s.phase connection with
    | some (.collecting request _) =>
      some (s.answers connection ⟨request, { baseResponse config with status := 413 }, none⟩)
    | _ => none
  | .queryEnds connection result =>
    match s.phase connection with
    | some (.querying request _) =>
      some (s.answers connection ⟨request, (baseResponse config).setSymbols result, none⟩)
    | _ => none
  | .jobEnds job files => (s.galleryJobs.holders.lookup job).map fun asked => s.endsJob job asked (.ends files)
  | .jobPanics job error => (s.galleryJobs.holders.lookup job).map fun asked => s.endsJob job asked (.panics error)
  | .deliver connection =>
    match s.phase connection with
    | some (.waiting request job) =>
      (s.ended.lookup job).map fun ended =>
        s.answers connection
          ⟨request, jobResponse serializer config ended.2.1 (ended.2.2.jobEnd config ended.2.1), some job⟩
    | _ => none
  | .close connection => (s.phase connection).map fun _ => { s with connections := s.connections.release connection }

end ServeState

end

end Serve

end RustProfile
