import RustProfile.Lib.Run
import RustProfile.Serve

/-!
# What the server answers

However connections, requests, bodies, tasks and time-outs interleave, only
admitted requests cause work, the limits hold, and what is answered belongs to
the request.
-/

namespace RustProfile

namespace Serve

open Gallery Run

/-! ## What is served -/

structure Accepted (host : ServeHost) (args : ServeArgs) (config : ServeConfig) : Prop where
  token : config.token = args.bearerToken
  loopback : config.loopback = args.loopback
  corsOrigin : config.corsOrigin = args.corsOrigin ∧ ∀ origin ∈ config.corsOrigin, host.headerValue origin = true
  /-- Either a profile of bounded size, also as it is, or a directory. -/
  source : (∃ path size, args.profile = some path ∧ config.source = .profile path ∧
      config.legacyProfile = some (legacyProfileOf path) ∧ host.isFile path = true ∧
      host.metadata path = .ok size ∧ size ≤ maxProfileBytes) ∨
    ∃ directory, args.directory = some directory ∧ config.source = .directory directory ∧
      config.legacyProfile = none ∧ host.isDir directory = true

theorem checkProfile_eq_ok {host : ServeHost} {path : GalleryPath} (h : checkProfile host path = .ok ()) :
    host.isFile path = true ∧ ∃ size, host.metadata path = .ok size ∧ size ≤ maxProfileBytes := by
  unfold checkProfile at h
  cases hfile : host.isFile path with
  | false =>
    rw [hfile] at h
    cases h
  | true =>
    refine ⟨rfl, ?_⟩
    cases hsize : host.metadata path with
    | error error =>
      rw [hfile, hsize] at h
      cases h
    | ok size =>
      refine ⟨size, rfl, not_lt.mp fun hlarge => ?_⟩
      rw [hfile, hsize] at h
      change (if size > maxProfileBytes then _ else _) = _ at h
      rw [if_pos hlarge] at h
      cases h

theorem checkDirectory_eq_ok {host : ServeHost} {directory : String} (h : checkDirectory host directory = .ok ()) :
    host.isDir directory = true := by
  unfold checkDirectory at h
  cases hdir : host.isDir directory with
  | false =>
    rw [hdir] at h
    cases h
  | true => rfl

theorem accepted_of_serveConfig {host : ServeHost} {args : ServeArgs} {config : ServeConfig}
    (h : serveConfig host args = .ok config) : Accepted host args config := by
  obtain ⟨profile, directory, loopback, bearerToken, corsOrigin⟩ := args
  unfold serveConfig at h
  obtain ⟨⟨⟩, hprofile, h⟩ := Except.bind_eq_ok.mp h
  obtain ⟨⟨⟩, hdirectory, h⟩ := Except.bind_eq_ok.mp h
  split at h
  case isFalse => cases h
  obtain ⟨source, hsource, h⟩ := Except.bind_eq_ok.mp h
  by_cases horigin : corsOrigin.all host.headerValue = true
  · simp only [horigin] at h
    cases h
    refine ⟨rfl, rfl, ⟨rfl, fun origin hmem => ?_⟩, ?_⟩
    · cases hmem
      exact horigin
    · cases profile with
      | some path =>
        cases directory with
        | some directory => cases hsource
        | none =>
          cases hsource
          obtain ⟨hfile, size, hsize, hle⟩ := checkProfile_eq_ok hprofile
          exact .inl ⟨path, size, rfl, rfl, rfl, hfile, hsize, hle⟩
      | none =>
        cases directory with
        | some directory =>
          cases hsource
          exact .inr ⟨directory, rfl, rfl, rfl, checkDirectory_eq_ok hdirectory⟩
        | none => cases hsource
  · simp only [horigin] at h
    cases h

/-! ## Bounded output -/

theorem BoundedBuffer.bytes_writeAll {limit : ℕ} : ∀ (pieces : List (List UInt8)) (self : BoundedBuffer limit),
    (self.writeAll pieces).map (·.bytes) =
      if self.bytes.length + pieces.flatten.length ≤ limit then some (self.bytes ++ pieces.flatten) else none
  | [], self => by
    have := self.fits
    simp [writeAll, this]
  | piece :: pieces, self => by
    unfold writeAll write
    by_cases hfits : self.bytes.length + piece.length ≤ limit
    · rw [dif_pos hfits, Option.bind_some, bytes_writeAll pieces]
      simp only [List.length_append, List.flatten_cons, List.append_assoc, Nat.add_assoc]
    · rw [dif_neg hfits, Option.bind_none, Option.map_none, if_neg]
      rw [List.flatten_cons, List.length_append]
      omega

theorem serialized_eq_some {pieces : List (List UInt8)} {bytes : List UInt8} (h : serialized pieces = some bytes) :
    bytes = pieces.flatten ∧ bytes.length ≤ maxResponseBytes := by
  unfold serialized at h
  rw [BoundedBuffer.bytes_writeAll] at h
  split at h
  case isTrue hfits =>
    cases h
    simpa [BoundedBuffer.new] using hfits
  case isFalse => cases h

/-! ## Headers -/

structure Hardened (config : ServeConfig) (response : Response) : Prop where
  sniffing : response.headers.lookup "x-content-type-options" = some "nosniff"
  referrer : response.headers.lookup "referrer-policy" = some "no-referrer"
  policy : response.headers.lookup "content-security-policy" = some policy
  origin : response.headers.lookup "access-control-allow-origin" = config.corsOrigin

def hardenedNames : List String :=
  ["x-content-type-options", "referrer-policy", "content-security-policy", "access-control-allow-origin"]

section
variable {config : ServeConfig} {response : Response}

theorem lookup_insert_ne {name name' : String} (h : name' ≠ name) (value : String) :
    (response.insert name value).headers.lookup name' = response.headers.lookup name' := by
  unfold Response.insert
  exact AList.lookup_insert_ne h

theorem Hardened.insert (h : Hardened config response) {name : String} (hname : name ∉ hardenedNames) (value : String) :
    Hardened config (response.insert name value) := by
  simp only [hardenedNames, List.mem_cons, List.not_mem_nil, or_false, not_or] at hname
  obtain ⟨hsniffing, hreferrer, hpolicy, horigin⟩ := hname
  refine ⟨?_, ?_, ?_, ?_⟩
  · rw [lookup_insert_ne (Ne.symm hsniffing), h.sniffing]
  · rw [lookup_insert_ne (Ne.symm hreferrer), h.referrer]
  · rw [lookup_insert_ne (Ne.symm hpolicy), h.policy]
  · rw [lookup_insert_ne (Ne.symm horigin), h.origin]

theorem Hardened.of_headers (h : Hardened config response) {other : Response}
    (hheaders : other.headers = response.headers) : Hardened config other :=
  ⟨hheaders ▸ h.sniffing, hheaders ▸ h.referrer, hheaders ▸ h.policy, hheaders ▸ h.origin⟩

theorem baseResponse_hardened (config : ServeConfig) : Hardened config (baseResponse config) := by
  unfold baseResponse
  cases horigin : config.corsOrigin with
  | none =>
    dsimp only
    exact ⟨by decide +kernel, by decide +kernel, by decide +kernel, by rw [horigin]; decide +kernel⟩
  | some origin =>
    dsimp only
    refine ⟨?_, ?_, ?_, ?_⟩
    · rw [lookup_insert_ne (by decide)]
      decide +kernel
    · rw [lookup_insert_ne (by decide)]
      decide +kernel
    · rw [lookup_insert_ne (by decide)]
      decide +kernel
    · rw [horigin]
      exact AList.lookup_insert _

theorem Hardened.setError (h : Hardened config response) (status : ℕ) (error : String) :
    Hardened config (response.setError status error) := by
  unfold Response.setError
  refine Hardened.insert ?_ (by decide) _
  exact h.of_headers rfl

theorem Hardened.setBusy (h : Hardened config response) : Hardened config response.setBusy := by
  unfold Response.setBusy
  refine (Hardened.insert ?_ (by decide) _).insert (by decide) _
  exact h.of_headers rfl

theorem Hardened.setJson (h : Hardened config response) (pieces : List (List UInt8)) :
    Hardened config (response.setJson pieces) := by
  unfold Response.setJson
  cases serialized pieces with
  | none => exact h.of_headers rfl
  | some bytes =>
    refine (Hardened.insert ?_ (by decide) _).insert (by decide) _
    exact h.of_headers rfl

theorem Hardened.setProfile (h : Hardened config response) (profile : LegacyProfile) (bytes : List UInt8) :
    Hardened config (response.setProfile profile bytes) := by
  have hbody : Hardened config { response with body := bytes } := h.of_headers rfl
  unfold Response.setProfile
  dsimp only
  split
  · exact (hbody.insert (by decide) _).insert (by decide) _
  · exact hbody.insert (by decide) _

theorem Hardened.setSymbols (h : Hardened config response) (result : Option (List (List UInt8))) :
    Hardened config (response.setSymbols result) := by
  unfold Response.setSymbols
  cases result with
  | none => exact h.of_headers rfl
  | some pieces =>
    dsimp only
    cases serialized pieces with
    | none => exact h.of_headers rfl
    | some bytes =>
      refine Hardened.insert ?_ (by decide) _
      exact h.of_headers rfl

end

/-! ## Admission -/

/-- The request carries the token, if there is one; without one only the loopback is listened to. -/
structure Admitted (config : ServeConfig) (request : Request) : Prop where
  token : ∀ token ∈ config.token, request.authorization = some ("Bearer " ++ token)
  remote : config.loopback = false → ∃ token ∈ config.token, token ≠ ""

theorem admitted_of_authorized {config : ServeConfig} {request : Request} (h : authorized request config.token = true) :
    Admitted config request := by
  have hguarded := config.guarded
  cases htoken : config.token with
  | none =>
    rw [htoken] at hguarded
    refine ⟨fun token hmem => ?_, fun hremote => ?_⟩
    · rw [htoken] at hmem
      cases hmem
    · rw [hremote] at hguarded
      exact absurd hguarded (by decide)
  | some token =>
    rw [htoken] at h hguarded
    refine ⟨fun token' hmem => ?_, fun hremote => ⟨token, htoken, fun hempty => ?_⟩⟩
    · rw [htoken] at hmem
      cases hmem
      simpa [authorized] using h
    · rw [hremote, hempty] at hguarded
      exact absurd hguarded (by decide)

section
variable {viewerHtml : List UInt8} {config : ServeConfig} {request : Request}

/-- What is not answered at once comes from an admitted request. -/
theorem authorized_of_handle (h : ∀ response, handle viewerHtml config request ≠ .answer response) :
    request.method ≠ .options ∧ authorized request config.token = true := by
  unfold handle at h
  by_cases hoptions : request.method = .options
  · rw [if_pos hoptions] at h
    exact absurd rfl (h _)
  · rw [if_neg hoptions] at h
    by_cases hauthorized : authorized request config.token = false
    · rw [if_pos hauthorized] at h
      exact absurd rfl (h _)
    · exact ⟨hoptions, by simpa using hauthorized⟩

theorem authorized_of_job {job : GalleryJob} (h : handle viewerHtml config request = .job job) :
    request.method ≠ .options ∧ authorized request config.token = true :=
  authorized_of_handle fun response hanswer => by cases h.symm.trans hanswer

theorem authorized_of_collect (h : handle viewerHtml config request = .collect) :
    request.method ≠ .options ∧ authorized request config.token = true :=
  authorized_of_handle fun response hanswer => by cases h.symm.trans hanswer

end

/-! ## Fitting responses -/

section
variable {F : Type} (serializer : Serializer F) (viewerHtml : List UInt8) (config : ServeConfig)

/-- What a task brings that ran to its end, read and decoded from the files that it found. -/
def Brings (files : ServeFiles F) (body : List UInt8) : GalleryJob → Prop
  | .readProfile profile => files.read profile.path = .ok body
  | .listEntries => ∃ found : List ProfileEntry, entries files.toGalleryFiles config.source = .ok found ∧
      body = (serializer.entries found).flatten ∧ body.length ≤ maxResponseBytes
  | .decodeProfile id => ∃ (entry : ProfileEntry) (profile : ViewerProfile F),
      find files.toGalleryFiles config.source id = .ok (some entry) ∧ files.decode entry = .ok profile ∧
        body = (serializer.profile entry profile).flatten ∧ body.length ≤ maxResponseBytes

/-- What may be answered to a request. -/
structure Fitting (answer : Answered) : Prop where
  hardened : Hardened config answer.response
  preflight : answer.request.method = .options → answer.response = preflight config
  refused : answer.request.method ≠ .options → authorized answer.request config.token = false →
    answer.response.status = 401 ∧ answer.response.body = []
  symbols : handle viewerHtml config answer.request = .collect → answer.response.status = 200 →
    answer.response.body.length ≤ maxResponseBytes
  busy : answer.response.status = 503 →
    answer.task = none ∧ ∃ job, handle viewerHtml config answer.request = .job job
  untasked : ∀ job, handle viewerHtml config answer.request = .job job → answer.task = none →
    answer.response = (baseResponse config).setBusy

variable {serializer viewerHtml config}

/-- A response to a request that is not handled by a task. -/
theorem Fitting.of_answer {request : Request} {response : Response} (hhardened : Hardened config response)
    (hhandle : handle viewerHtml config request = .answer response)
    (hpreflight : request.method = .options → response = Serve.preflight config)
    (hrefused : request.method ≠ .options → authorized request config.token = false →
      response.status = 401 ∧ response.body = []) (hbusy : response.status ≠ 503) :
    Fitting viewerHtml config ⟨request, response, none⟩ where
  hardened := hhardened
  preflight := hpreflight
  refused := hrefused
  symbols := fun hcollect => by cases hhandle.symm.trans hcollect
  busy := fun h => absurd h hbusy
  untasked := fun job hjob => by cases hhandle.symm.trans hjob

theorem preflight_hardened (config : ServeConfig) : Hardened config (preflight config) := by
  have hbase := baseResponse_hardened config
  unfold preflight
  split
  · refine (Hardened.insert ?_ (by decide) _).insert (by decide) _
    exact hbase.of_headers rfl
  · exact hbase.of_headers rfl

theorem baseResponse_status (config : ServeConfig) : (baseResponse config).status = 200 := by
  unfold baseResponse
  cases config.corsOrigin <;> rfl

theorem preflight_status (config : ServeConfig) : (preflight config).status ≠ 503 := by
  unfold preflight
  split
  · exact (by decide : 204 ≠ 503)
  · exact (by decide : 405 ≠ 503)

theorem getRequest_answer {path : String} {response : Response}
    (h : getRequest viewerHtml config path = .answer response) : Hardened config response ∧ response.status ≠ 503 := by
  have hbase := baseResponse_hardened config
  have hstatus := baseResponse_status config
  have hlost : Hardened config { baseResponse config with status := 404 } := hbase.of_headers rfl
  unfold getRequest at h
  split at h
  · cases h
    refine ⟨(Hardened.insert ?_ (by decide) _).insert (by decide) _, ?_⟩
    · exact hbase.of_headers rfl
    · exact hstatus.trans_ne (by decide)
  split at h
  · cases h
    refine ⟨Hardened.insert ?_ (by decide) _, ?_⟩
    · exact hbase.of_headers rfl
    · exact hstatus.trans_ne (by decide)
  split at h
  · split at h
    · cases h
    · cases h
      exact ⟨hlost, (by decide : 404 ≠ 503)⟩
  split at h
  · cases h
  split at h
  · cases h
  · cases h
    exact ⟨hlost, (by decide : 404 ≠ 503)⟩

theorem handle_fitting {request : Request} {response : Response}
    (h : handle viewerHtml config request = .answer response) :
      Fitting viewerHtml config ⟨request, response, none⟩ := by
  have hbase := baseResponse_hardened config
  have hhandle := h
  unfold handle at h
  split at h
  case isTrue hoptions =>
    cases h
    exact .of_answer (preflight_hardened config) hhandle (fun _ => rfl) (fun hnot => absurd hoptions hnot)
      (preflight_status config)
  rename_i hoptions
  have hpreflight : request.method = .options → response = preflight config := fun h => absurd h hoptions
  split at h
  case isTrue hrefused =>
    cases h
    refine .of_answer (hbase.of_headers rfl) hhandle hpreflight (fun _ _ => ⟨rfl, ?_⟩) (by decide : 401 ≠ 503)
    unfold baseResponse
    cases config.corsOrigin <;> rfl
  case isFalse hauthorized =>
    have hrefused : request.method ≠ .options → authorized request config.token = false →
        response.status = 401 ∧ response.body = [] := fun _ hnot => absurd hnot hauthorized
    split at h
    · obtain ⟨hhardened, hbusy⟩ := getRequest_answer h
      exact .of_answer hhardened hhandle hpreflight hrefused hbusy
    · split at h
      · cases h
        exact .of_answer (hbase.of_headers rfl) hhandle hpreflight hrefused (by decide : 413 ≠ 503)
      · cases h
    · cases h
      exact .of_answer (hbase.of_headers rfl) hhandle hpreflight hrefused (by decide : 404 ≠ 503)

/-- A response to a body that was collected. -/
theorem Fitting.of_collect {request : Request} {response : Response} (hhardened : Hardened config response)
    (hhandle : handle viewerHtml config request = .collect)
    (hbounded : response.status = 200 → response.body.length ≤ maxResponseBytes) (hbusy : response.status ≠ 503) :
    Fitting viewerHtml config ⟨request, response, none⟩ where
  hardened := hhardened
  preflight := fun hoptions => absurd hoptions (authorized_of_collect hhandle).1
  refused := fun _ hrefused => by cases hrefused.symm.trans (authorized_of_collect hhandle).2
  symbols := fun _ => hbounded
  busy := fun h => absurd h hbusy
  untasked := fun job hjob => by cases hhandle.symm.trans hjob

theorem failed_fitting {request : Request} (hhandle : handle viewerHtml config request = .collect) {status : ℕ}
    (hfailed : status ≠ 200) (hbusy : status ≠ 503) :
    Fitting viewerHtml config ⟨request, { baseResponse config with status := status }, none⟩ :=
  .of_collect ((baseResponse_hardened config).of_headers rfl) hhandle (fun hok => absurd hok hfailed) hbusy

theorem symbols_fitting {request : Request} (hhandle : handle viewerHtml config request = .collect)
    (result : Option (List (List UInt8))) :
    Fitting viewerHtml config ⟨request, (baseResponse config).setSymbols result, none⟩ := by
  have hhardened := (baseResponse_hardened config).setSymbols result
  cases result with
  | none => exact .of_collect hhardened hhandle (fun h => by cases h) (by decide : 504 ≠ 503)
  | some pieces =>
    unfold Response.setSymbols at hhardened ⊢
    dsimp only at hhardened ⊢
    cases hpieces : serialized pieces with
    | none =>
      rw [hpieces] at hhardened
      exact .of_collect hhardened hhandle (fun h => by cases h) (by decide : 500 ≠ 503)
    | some bytes =>
      rw [hpieces] at hhardened
      refine .of_collect hhardened hhandle (fun _ => (serialized_eq_some hpieces).2) ?_
      exact (baseResponse_status config).trans_ne (by decide)

theorem busy_fitting {request : Request} {job : GalleryJob} (hhandle : handle viewerHtml config request = .job job) :
    Fitting viewerHtml config ⟨request, (baseResponse config).setBusy, none⟩ where
  hardened := (baseResponse_hardened config).setBusy
  preflight := fun hoptions => absurd hoptions (authorized_of_job hhandle).1
  refused := fun _ hrefused => by cases hrefused.symm.trans (authorized_of_job hhandle).2
  symbols := fun hcollect => by cases hhandle.symm.trans hcollect
  busy := fun _ => ⟨rfl, job, hhandle⟩
  untasked := fun _ _ _ => rfl

theorem setJson_status (config : ServeConfig) (pieces : List (List UInt8)) :
    ((baseResponse config).setJson pieces).status ≠ 503 := by
  unfold Response.setJson
  cases serialized pieces with
  | none => exact (by decide : 500 ≠ 503)
  | some bytes => exact (baseResponse_status config).trans_ne (by decide)

theorem setJson_sent {pieces : List (List UInt8)} (h : ((baseResponse config).setJson pieces).status = 200) :
    ((baseResponse config).setJson pieces).body = pieces.flatten ∧
      ((baseResponse config).setJson pieces).body.length ≤ maxResponseBytes := by
  unfold Response.setJson at h ⊢
  cases hpieces : serialized pieces with
  | none =>
    rw [hpieces] at h
    cases h
  | some bytes => exact serialized_eq_some hpieces

theorem jobResponse_hardened (serializer : Serializer F) (config : ServeConfig) (job : GalleryJob) (jobEnd : JobEnd F) :
    Hardened config (jobResponse serializer config job jobEnd) := by
  have hbase := baseResponse_hardened config
  unfold jobResponse
  split
  · exact hbase.setProfile _ _
  · exact hbase.setJson _
  · exact hbase.setJson _
  · exact hbase.setError _ _
  · exact hbase.setError _ _
  · exact hbase.setError _ _
  · exact hbase.of_headers rfl

theorem jobResponse_status (serializer : Serializer F) (config : ServeConfig) (job : GalleryJob) (jobEnd : JobEnd F) :
    (jobResponse serializer config job jobEnd).status ≠ 503 := by
  unfold jobResponse
  split
  · unfold Response.setProfile
    dsimp only
    split <;> exact (baseResponse_status config).trans_ne (by decide)
  · exact setJson_status config _
  · exact setJson_status config _
  · exact (by decide : 422 ≠ 503)
  · exact (by decide : 500 ≠ 503)
  · exact (by decide : 500 ≠ 503)
  · exact (by decide : 404 ≠ 503)

theorem setProfile_body (response : Response) (profile : LegacyProfile) (bytes : List UInt8) :
    (response.setProfile profile bytes).body = bytes := by
  unfold Response.setProfile
  dsimp only
  split <;> rfl

theorem jobResponse_brings {job : GalleryJob} {files : ServeFiles F}
    (hok : (jobResponse serializer config job (job.perform config files)).status = 200) :
    Brings serializer config files (jobResponse serializer config job (job.perform config files)).body job := by
  cases job with
  | readProfile profile =>
    unfold Brings
    cases hread : files.read profile.path with
    | error error =>
      simp only [GalleryJob.perform, hread] at hok
      cases hok
    | ok bytes =>
      simp only [GalleryJob.perform, hread]
      exact congrArg Except.ok (setProfile_body _ _ _).symm
  | listEntries =>
    cases hentries : entries files.toGalleryFiles config.source with
    | error error =>
      simp only [GalleryJob.perform, hentries] at hok
      cases hok
    | ok found =>
      simp only [GalleryJob.perform, hentries] at hok ⊢
      exact ⟨found, hentries, setJson_sent hok⟩
  | decodeProfile id =>
    cases hfind : find files.toGalleryFiles config.source id with
    | error error =>
      simp only [GalleryJob.perform, hfind] at hok
      cases hok
    | ok found =>
      cases found with
      | none =>
        simp only [GalleryJob.perform, hfind] at hok
        cases hok
      | some entry =>
        cases hdecode : files.decode entry with
        | error error =>
          simp only [GalleryJob.perform, hfind, hdecode] at hok
          cases hok
        | ok profile =>
          simp only [GalleryJob.perform, hfind, hdecode] at hok ⊢
          exact ⟨entry, profile, hfind, hdecode, setJson_sent hok⟩

theorem job_fitting {request : Request} {job : GalleryJob} (hhandle : handle viewerHtml config request = .job job)
    (jobEnd : JobEnd F) (task : ℕ) :
    Fitting viewerHtml config ⟨request, jobResponse serializer config job jobEnd, some task⟩ where
  hardened := jobResponse_hardened serializer config job jobEnd
  preflight := fun hoptions => absurd hoptions (authorized_of_job hhandle).1
  refused := fun _ hrefused => by cases hrefused.symm.trans (authorized_of_job hhandle).2
  symbols := fun hcollect => by cases hhandle.symm.trans hcollect
  busy := fun hbusy => absurd hbusy (jobResponse_status serializer config job jobEnd)
  untasked := fun _ _ htask => by cases htask

end

/-! ## Runs -/

section
variable {F : Type} (serializer : Serializer F) (viewerHtml : List UInt8) (config : ServeConfig)

def PhaseFits (s : ServeState F) : Phase → Prop
  | .idle => True
  | .collecting request received =>
    handle viewerHtml config request = .collect ∧ received.length ≤ maxRequestBytes
  | .querying request _ => handle viewerHtml config request = .collect
  | .waiting request job =>
    (∃ task, s.galleryJobs.holders.lookup job = some (request, task)) ∨
      ∃ task taskRun, s.ended.lookup job = some (request, task, taskRun)

def ResultOf (s : ServeState F) (answer : Answered) (job : ℕ) : Prop :=
  ∃ task taskRun, s.ended.lookup job = some (answer.request, task, taskRun) ∧
    answer.response = jobResponse serializer config task (taskRun.jobEnd config task)

structure ServeInv (s : ServeState F) : Prop where
  accepted : ∀ connection phase, s.phase connection = some phase → connection < s.accepted
  running : ∀ job asked, s.galleryJobs.holders.lookup job = some asked →
    job < s.spawned ∧ handle viewerHtml config asked.1 = .job asked.2
  ended : ∀ job asked, s.ended.lookup job = some asked →
    job < s.spawned ∧ handle viewerHtml config asked.1 = .job asked.2.1
  apart : ∀ job asked, s.galleryJobs.holders.lookup job = some asked → s.ended.lookup job = none
  phases : ∀ connection phase, s.phase connection = some phase → PhaseFits viewerHtml config s phase
  alone : ∀ c c' request request' job, s.phase c = some (.waiting request job) →
    s.phase c' = some (.waiting request' job) → c = c'
  worked : ∀ request ∈ s.worked, Admitted config request
  answered : ∀ answer ∈ s.answered, Fitting viewerHtml config answer
  results : ∀ answer ∈ s.answered, ∀ job, answer.task = some job → ResultOf serializer config s answer job
  once : (s.answered.filterMap Answered.task).Nodup
  unanswered : ∀ connection request job, s.phase connection = some (.waiting request job) →
    job ∉ s.answered.filterMap Answered.task

theorem serveInv_start : ServeInv serializer viewerHtml config ({} : ServeState F) where
  accepted := fun _ _ h => by cases h
  running := fun _ _ h => by cases h
  ended := fun _ _ h => by cases h
  apart := fun _ _ h => by cases h
  phases := fun _ _ h => by cases h
  alone := fun _ _ _ _ _ h => by cases h
  worked := fun _ h => by cases h
  answered := fun _ h => by cases h
  results := fun _ h => by cases h
  once := List.nodup_nil
  unanswered := fun _ _ _ h => by cases h

variable {serializer viewerHtml config} {s t : ServeState F} {connection : ℕ} {phase : Phase}

theorem phase_goesOn (hphase : s.phase connection = some phase) (next : Phase) (c : ℕ) :
    (s.goesOn connection next).phase c = if c = connection then some next else s.phase c := by
  change (s.connections.goOn connection next).holders.lookup c = _
  rw [Semaphore.lookup_goOn (Table.mem_of_lookup hphase), Table.lookup_insert]
  rfl

theorem PhaseFits.job_lt {request : Request} {job : ℕ} (h : ServeInv serializer viewerHtml config s)
    (hphase : s.phase connection = some (.waiting request job)) : job < s.spawned := by
  obtain ⟨task, htask⟩ | ⟨task, taskRun, hended⟩ := h.phases _ _ hphase
  · exact (h.running _ _ htask).1
  · exact (h.ended _ _ hended).1

namespace ServeInv

variable (h : ServeInv serializer viewerHtml config s)
include h

theorem goesOn (hphase : s.phase connection = some phase) (next : Phase)
    (hfits : PhaseFits viewerHtml config s next) (hwaiting : ∀ request job, next ≠ .waiting request job) :
    ServeInv serializer viewerHtml config (s.goesOn connection next) where
  accepted := fun c p hp => by
    rw [phase_goesOn hphase] at hp
    split at hp
    case isTrue heq =>
      subst heq
      exact h.accepted _ _ hphase
    case isFalse => exact h.accepted _ _ hp
  running := h.running
  ended := h.ended
  apart := h.apart
  phases := fun c p hp => by
    rw [phase_goesOn hphase] at hp
    split at hp
    case isTrue => cases hp; exact hfits
    case isFalse => exact h.phases _ _ hp
  alone := fun c c' request request' job hc hc' => by
    rw [phase_goesOn hphase] at hc hc'
    split at hc
    case isTrue => exact absurd (Option.some.inj hc) (hwaiting _ _)
    case isFalse =>
      split at hc'
      case isTrue => exact absurd (Option.some.inj hc') (hwaiting _ _)
      case isFalse => exact h.alone _ _ _ _ _ hc hc'
  worked := h.worked
  answered := h.answered
  results := h.results
  once := h.once
  unanswered := fun c request job hc => by
    rw [phase_goesOn hphase] at hc
    split at hc
    case isTrue => exact absurd (Option.some.inj hc) (hwaiting _ _)
    case isFalse => exact h.unanswered _ _ _ hc

/-- A result is the one that the connection waits for, and no other connection does. -/
theorem answers {answer : Answered} (hphase : s.phase connection = some phase)
    (hfitting : Fitting viewerHtml config answer)
    (hresult : ∀ job, answer.task = some job →
      phase = .waiting answer.request job ∧ ResultOf serializer config s answer job) :
    ServeInv serializer viewerHtml config (s.answers connection answer) := by
  have hidle := h.goesOn hphase .idle trivial (fun _ _ hidle => by cases hidle)
  have hmem : ∀ {job}, job ∈ (s.answered ++ [answer]).filterMap Answered.task →
      job ∈ s.answered.filterMap Answered.task ∨ answer.task = some job := fun {job} hjob => by
    rw [List.filterMap_append, List.mem_append] at hjob
    refine hjob.imp_right fun hnew => ?_
    obtain ⟨_, hanswer, htask⟩ := List.mem_filterMap.mp hnew
    rwa [List.mem_singleton.mp hanswer] at htask
  refine { hidle with answered := ?_, results := ?_, once := ?_, unanswered := fun c request job hc hjob => ?_ }
  · exact List.forall_mem_append.mpr ⟨h.answered, fun _ hnew => List.mem_singleton.mp hnew ▸ hfitting⟩
  · refine List.forall_mem_append.mpr ⟨h.results, fun _ hnew => ?_⟩
    rw [List.mem_singleton.mp hnew]
    exact fun job hjob => (hresult job hjob).2
  · change ((s.answered ++ [answer]).filterMap Answered.task).Nodup
    rw [List.filterMap_append]
    cases htask : answer.task with
    | none => simpa [htask] using h.once
    | some job =>
      have hunanswered := h.unanswered _ _ _ (hphase.trans (congrArg some (hresult job htask).1))
      have hnew : [answer].filterMap Answered.task = [job] := by simp [htask]
      rw [hnew]
      exact h.once.append (List.nodup_singleton job) (List.disjoint_singleton.mpr hunanswered)
  · have hc' := hc
    change (s.goesOn connection .idle).phase c = _ at hc'
    rw [phase_goesOn hphase] at hc'
    split at hc'
    case isTrue => cases hc'
    case isFalse hne =>
      obtain hold | hnew := hmem hjob
      · exact h.unanswered _ _ _ hc' hold
      · exact hne (h.alone _ _ _ _ _ hc' (hphase.trans (congrArg some (hresult job hnew).1)))

theorem answers_untasked (hphase : s.phase connection = some phase) {request : Request} {response : Response}
    (hfitting : Fitting viewerHtml config ⟨request, response, none⟩) :
    ServeInv serializer viewerHtml config (s.answers connection ⟨request, response, none⟩) :=
  h.answers hphase hfitting fun _ htask => by cases htask

theorem answered_lt {job : ℕ}
    (hjob : job ∈ s.answered.filterMap Answered.task) : job < s.spawned := by
  obtain ⟨answer, hanswer, htask⟩ := List.mem_filterMap.mp hjob
  obtain ⟨task, taskRun, hended, -⟩ := h.results answer hanswer job htask
  exact (h.ended _ _ hended).1

/-- A task that begins has a new name, so that no other connection waits for it. -/
theorem spawns (hphase : s.phase connection = some phase) {request : Request} {job : GalleryJob}
    (hhandle : handle viewerHtml config request = .job job)
    {galleryJobs : Semaphore maxGalleryJobs ℕ (Request × GalleryJob)}
    (hacquired : s.galleryJobs.tryAcquire s.spawned (request, job) = some galleryJobs) :
    ServeInv serializer viewerHtml config
      { s.goesOn connection (.waiting request s.spawned) with
        galleryJobs := galleryJobs
        spawned := s.spawned + 1
        worked := s.worked ++ [request] } := by
  -- The new job's number is the counter itself, so no earlier connection waits for it.
  obtain ⟨-, hholders⟩ := Semaphore.tryAcquire_eq_some hacquired
  have hlookup : ∀ j, galleryJobs.holders.lookup j =
      if j = s.spawned then some (request, job) else s.galleryJobs.holders.lookup j := fun j => by
    rw [hholders, Table.lookup_insert]
  have hother : ∀ {c p}, s.phase c = some p → ∀ request', p ≠ .waiting request' s.spawned := by
    rintro c p hp request' rfl
    exact absurd (PhaseFits.job_lt h hp) (lt_irrefl _)
  refine ⟨fun c p hp => ?_, fun j asked hj => ?_, fun j asked hj => ?_, fun j asked hj => ?_, fun c p hp => ?_,
    fun c c' r r' j hc hc' => ?_, fun r hr => ?_, h.answered, h.results, h.once, fun c r j hc hmem => ?_⟩
  · change (s.goesOn connection _).phase c = some p at hp
    rw [phase_goesOn hphase] at hp
    split at hp
    case isTrue heq =>
      subst heq
      exact h.accepted _ _ hphase
    case isFalse => exact h.accepted _ _ hp
  · change galleryJobs.holders.lookup j = some asked at hj
    rw [hlookup] at hj
    split at hj
    case isTrue heq =>
      cases hj
      exact ⟨heq ▸ Nat.lt_succ_self _, hhandle⟩
    case isFalse => exact ⟨Nat.lt_succ_of_lt (h.running _ _ hj).1, (h.running _ _ hj).2⟩
  · exact ⟨Nat.lt_succ_of_lt (h.ended _ _ hj).1, (h.ended _ _ hj).2⟩
  · change galleryJobs.holders.lookup j = some asked at hj
    rw [hlookup] at hj
    split at hj
    case isTrue heq =>
      cases hended : s.ended.lookup j with
      | none => exact hended
      | some asked' => exact absurd (heq ▸ (h.ended _ _ hended).1) (lt_irrefl _)
    case isFalse => exact h.apart _ _ hj
  · change (s.goesOn connection _).phase c = some p at hp
    rw [phase_goesOn hphase] at hp
    split at hp
    case isTrue =>
      cases hp
      exact .inl ⟨job, by rw [hlookup, if_pos rfl]⟩
    case isFalse =>
      have hold := h.phases _ _ hp
      cases p with
      | waiting request' j =>
        refine hold.imp_left fun ⟨task, htask⟩ => ⟨task, ?_⟩
        rw [hlookup, if_neg]
        · exact htask
        · rintro rfl
          exact hother hp request' rfl
      | _ => exact hold
  · change (s.goesOn connection _).phase c = some _ at hc
    change (s.goesOn connection _).phase c' = some _ at hc'
    rw [phase_goesOn hphase] at hc hc'
    split at hc
    case isTrue heq =>
      cases hc
      split at hc'
      case isTrue heq' => exact heq.trans heq'.symm
      case isFalse => exact absurd rfl (hother hc' r')
    case isFalse =>
      split at hc'
      case isTrue =>
        cases hc'
        exact absurd rfl (hother hc r)
      case isFalse => exact h.alone _ _ _ _ _ hc hc'
  · obtain hold | hnew := List.mem_append.mp hr
    · exact h.worked _ hold
    · rw [List.mem_singleton.mp hnew]
      exact admitted_of_authorized (authorized_of_job hhandle).2
  · change (s.goesOn connection _).phase c = some _ at hc
    rw [phase_goesOn hphase] at hc
    split at hc
    case isTrue =>
      cases hc
      exact absurd (h.answered_lt hmem) (lt_irrefl _)
    case isFalse => exact h.unanswered _ _ _ hc hmem

/-- The result of a task that ends is there for the connection that waits for it. -/
theorem endsJob {job : ℕ} {asked : Request × GalleryJob} (hjob : s.galleryJobs.holders.lookup job = some asked)
    (taskRun : TaskRun F) : ServeInv serializer viewerHtml config (s.endsJob job asked taskRun) where
  accepted := h.accepted
  running := fun j other hj => by
    change (s.galleryJobs.release job).holders.lookup j = some other at hj
    rw [Semaphore.holders_release, Table.lookup_erase_eq_some] at hj
    exact h.running _ _ hj.2
  ended := fun j other hj => by
    change (s.ended.insert job _).lookup j = some other at hj
    obtain ⟨rfl, rfl⟩ | ⟨-, hj⟩ := Table.lookup_insert_eq_some.mp hj
    · exact h.running _ _ hjob
    · exact h.ended _ _ hj
  apart := fun j other hj => by
    change (s.galleryJobs.release job).holders.lookup j = some other at hj
    change (s.ended.insert job _).lookup j = none
    rw [Semaphore.holders_release, Table.lookup_erase_eq_some] at hj
    rw [Table.lookup_insert, if_neg hj.1]
    exact h.apart _ _ hj.2
  phases := fun c p hp => by
    have hold := h.phases _ _ hp
    cases p with
    | waiting request j =>
      change (∃ task, (s.galleryJobs.release job).holders.lookup j = some (request, task)) ∨
        ∃ task taskRun', (s.ended.insert job (asked.1, asked.2, taskRun)).lookup j = some (request, task, taskRun')
      by_cases hj : j = job
      · subst hj
        refine .inr ⟨asked.2, taskRun, ?_⟩
        rw [AList.lookup_insert]
        obtain ⟨task, htask⟩ | ⟨task, taskRun', hended⟩ := hold
        · rw [hjob] at htask
          cases htask
          rfl
        · cases (h.apart _ _ hjob).symm.trans hended
      · rw [Semaphore.holders_release, Table.lookup_erase, if_neg hj, Table.lookup_insert, if_neg hj]
        exact hold
    | _ => exact hold
  alone := h.alone
  worked := h.worked
  answered := h.answered
  results := fun answer hanswer j hj => by
    obtain ⟨task, taskRun', hended, hresponse⟩ := h.results answer hanswer j hj
    refine ⟨task, taskRun', ?_, hresponse⟩
    change (s.ended.insert job _).lookup j = _
    rw [Table.lookup_insert, if_neg]
    · exact hended
    · rintro rfl
      cases (h.apart _ _ hjob).symm.trans hended
  once := h.once
  unanswered := h.unanswered

theorem accepts {connections : Semaphore maxConnections ℕ Phase}
    (hacquired : s.connections.tryAcquire s.accepted .idle = some connections) :
    ServeInv serializer viewerHtml config { s with connections := connections, accepted := s.accepted + 1 } := by
  obtain ⟨-, hholders⟩ := Semaphore.tryAcquire_eq_some hacquired
  have hlookup : ∀ {c p}, connections.holders.lookup c = some p →
      c = s.accepted ∧ p = .idle ∨ s.phase c = some p := fun {c p} hp => by
    rw [hholders] at hp
    obtain ⟨rfl, rfl⟩ | ⟨-, hold⟩ := Table.lookup_insert_eq_some.mp hp
    · exact .inl ⟨rfl, rfl⟩
    · exact .inr hold
  refine { h with
    accepted := fun c p hp => ?_, phases := fun c p hp => ?_, alone := fun c c' r r' j hc hc' => ?_
    unanswered := fun c r j hc => ?_ }
  · obtain ⟨rfl, -⟩ | hold := hlookup hp
    · exact Nat.lt_succ_self _
    · exact Nat.lt_succ_of_lt (h.accepted _ _ hold)
  · obtain ⟨-, rfl⟩ | hold := hlookup hp
    · exact trivial
    · exact h.phases _ _ hold
  · obtain ⟨-, hidle⟩ | hold := hlookup hc
    · cases hidle
    obtain ⟨-, hidle⟩ | hold' := hlookup hc'
    · cases hidle
    exact h.alone _ _ _ _ _ hold hold'
  · obtain ⟨-, hidle⟩ | hold := hlookup hc
    · cases hidle
    · exact h.unanswered _ _ _ hold

/-- The task that a closed connection waits for goes on. -/
theorem closes (connection : ℕ) :
    ServeInv serializer viewerHtml config { s with connections := s.connections.release connection } := by
  have hlookup : ∀ {c p}, (s.connections.release connection).holders.lookup c = some p → s.phase c = some p :=
    fun {c p} hp => by
      rw [Semaphore.holders_release, Table.lookup_erase_eq_some] at hp
      exact hp.2
  exact { h with
    accepted := fun c p hp => h.accepted _ _ (hlookup hp)
    phases := fun c p hp => h.phases _ _ (hlookup hp)
    alone := fun c c' r r' j hc hc' => h.alone _ _ _ _ _ (hlookup hc) (hlookup hc')
    unanswered := fun c r j hc => h.unanswered _ _ _ (hlookup hc) }

theorem handles (hphase : s.phase connection = some phase) (request : Request) :
    ServeInv serializer viewerHtml config (s.handles viewerHtml config connection request) := by
  unfold ServeState.handles
  cases hhandle : handle viewerHtml config request with
  | answer response => exact h.answers_untasked hphase (handle_fitting hhandle)
  | collect =>
    exact h.goesOn hphase (.collecting request []) ⟨hhandle, Nat.zero_le _⟩ fun _ _ hnext => by cases hnext
  | job job =>
    dsimp only
    cases hacquired : s.galleryJobs.tryAcquire s.spawned (request, job) with
    | none => exact h.answers_untasked hphase (busy_fitting hhandle)
    | some galleryJobs => exact h.spawns hphase hhandle hacquired

theorem receives {request : Request} {received : List UInt8}
    (hphase : s.phase connection = some (.collecting request received)) (data : List UInt8) :
    ServeInv serializer viewerHtml config (s.receives config connection request received data) := by
  obtain ⟨hhandle, -⟩ := h.phases _ _ hphase
  unfold ServeState.receives
  split
  case isTrue => exact h.answers_untasked hphase (failed_fitting hhandle (by decide) (by decide))
  case isFalse hroom =>
    have hlength : (received ++ data).length ≤ maxRequestBytes := by
      rw [List.length_append]
      omega
    exact h.goesOn hphase (.collecting request (received ++ data)) ⟨hhandle, hlength⟩
      fun _ _ hnext => by cases hnext

theorem collected {request : Request} {received : List UInt8}
    (hphase : s.phase connection = some (.collecting request received)) :
    ServeInv serializer viewerHtml config (s.collected config connection request received) := by
  obtain ⟨hhandle, -⟩ := h.phases _ _ hphase
  unfold ServeState.collected
  split
  · exact h.answers_untasked hphase (failed_fitting hhandle (by decide) (by decide))
  split
  case h_1 body _ =>
    have hnext : ServeInv serializer viewerHtml config (s.goesOn connection (.querying request body)) :=
      h.goesOn hphase (.querying request body) hhandle fun _ _ hnext => by cases hnext
    refine { hnext with worked := fun other hother => ?_ }
    obtain hold | hnew := List.mem_append.mp hother
    · exact h.worked _ hold
    · rw [List.mem_singleton.mp hnew]
      exact admitted_of_authorized (authorized_of_collect hhandle).2
  case h_2 => exact h.answers_untasked hphase (failed_fitting hhandle (by decide) (by decide))

theorem step {step : ServeStep F} (hstep : s.step serializer viewerHtml config step = some t) :
    ServeInv serializer viewerHtml config t := by
  cases step with
  | accept =>
    simp only [ServeState.step] at hstep
    cases hacquired : s.connections.tryAcquire s.accepted .idle with
    | none =>
      rw [hacquired] at hstep
      cases hstep
      exact { h with accepted := fun c p hp => Nat.lt_succ_of_lt (h.accepted _ _ hp) }
    | some connections =>
      rw [hacquired] at hstep
      cases hstep
      exact h.accepts hacquired
  | request connection request =>
    simp only [ServeState.step] at hstep
    split at hstep
    case h_1 hphase => cases hstep; exact h.handles hphase request
    case h_2 => cases hstep
  | frame connection data =>
    simp only [ServeState.step] at hstep
    split at hstep
    case h_1 hphase => cases hstep; exact h.receives hphase data
    case h_2 => cases hstep
  | bodyEnds connection =>
    simp only [ServeState.step] at hstep
    split at hstep
    case h_1 hphase => cases hstep; exact h.collected hphase
    case h_2 => cases hstep
  | bodyFails connection =>
    simp only [ServeState.step] at hstep
    split at hstep
    case h_1 hphase =>
      cases hstep
      exact h.answers_untasked hphase (failed_fitting (h.phases _ _ hphase).1 (by decide) (by decide))
    case h_2 => cases hstep
  | queryEnds connection result =>
    simp only [ServeState.step] at hstep
    split at hstep
    case h_1 hphase =>
      cases hstep
      exact h.answers_untasked hphase (symbols_fitting (h.phases _ _ hphase) result)
    case h_2 => cases hstep
  | jobEnds job files =>
    obtain ⟨asked, hasked, rfl⟩ := Option.map_eq_some_iff.mp hstep
    exact h.endsJob hasked (.ends files)
  | jobPanics job error =>
    obtain ⟨asked, hasked, rfl⟩ := Option.map_eq_some_iff.mp hstep
    exact h.endsJob hasked (.panics error)
  | deliver connection =>
    simp only [ServeState.step] at hstep
    split at hstep
    case h_1 request job hphase =>
      obtain ⟨⟨request', task, taskRun⟩, hended, rfl⟩ := Option.map_eq_some_iff.mp hstep
      obtain rfl : request' = request := by
        obtain ⟨task', htask⟩ | ⟨task', taskRun', hended'⟩ := h.phases _ _ hphase
        · cases (h.apart _ _ htask).symm.trans hended
        · cases hended'.symm.trans hended
          rfl
      refine h.answers hphase (job_fitting (h.ended _ _ hended).2 _ job) fun other hother => ?_
      cases hother
      exact ⟨rfl, task, taskRun, hended, rfl⟩
    case h_2 => cases hstep
  | close connection =>
    obtain ⟨_, -, rfl⟩ := Option.map_eq_some_iff.mp hstep
    exact h.closes connection

end ServeInv

theorem size_pos {κ ν : Type} [DecidableEq κ] {holders : Table κ ν} :
    0 < holders.size ↔ ∃ k v, holders.lookup k = some v := by
  constructor
  · intro h
    obtain ⟨⟨k, v⟩, hmem⟩ := List.exists_mem_of_length_pos h
    exact ⟨k, v, Table.mem_entries.mp hmem⟩
  · rintro ⟨k, v, h⟩
    exact List.length_pos_of_mem (Table.mem_entries.mpr h)

def TaskRun.step (job : ℕ) : TaskRun F → ServeStep F
  | .ends files => .jobEnds job files
  | .panics error => .jobPanics job error

variable (serializer viewerHtml config)

/-- What holds of the server whenever it is looked at, after the steps so far. -/
structure Sound (steps : List (ServeStep F)) (s : ServeState F) : Prop where
  connections : s.connections.holders.size ≤ maxConnections
  galleryJobs : s.galleryJobs.holders.size ≤ maxGalleryJobs
  worked : ∀ request ∈ s.worked, Admitted config request
  answered : ∀ answer ∈ s.answered, Fitting viewerHtml config answer
  /-- What a task answers is the result of the request's own task, and is answered once. -/
  results : ∀ answer ∈ s.answered, ∀ job, answer.task = some job → ResultOf serializer config s answer job
  once : (s.answered.filterMap Answered.task).Nodup
  ended : ∀ job request task taskRun, s.ended.lookup job = some (request, task, taskRun) →
    handle viewerHtml config request = .job task ∧ taskRun.step job ∈ steps
  brings : ∀ answer ∈ s.answered, ∀ job task files, answer.task = some job →
    s.ended.lookup job = some (answer.request, task, .ends files) → answer.response.status = 200 →
      Brings serializer config files answer.response.body task
  /-- A request for a task is turned away exactly while another task runs. -/
  busy : ∀ connection request job, s.phase connection = some .idle → handle viewerHtml config request = .job job →
    ((∃ t, s.step serializer viewerHtml config (.request connection request) = some t ∧
      t.answered = s.answered ++ [⟨request, (baseResponse config).setBusy, none⟩]) ↔
        ∃ running asked, s.galleryJobs.holders.lookup running = some asked)
  /-- The task that a request waits for is its own; it runs, or its result can be answered. -/
  waits : ∀ connection request job, s.phase connection = some (.waiting request job) →
    (∃ task, s.galleryJobs.holders.lookup job = some (request, task)) ∨
      ∃ task taskRun t, s.ended.lookup job = some (request, task, taskRun) ∧
        s.step serializer viewerHtml config (.deliver connection) = some t ∧ t.answered =
          s.answered ++ [⟨request, jobResponse serializer config task (taskRun.jobEnd config task), some job⟩]
  alone : ∀ c c' request request' job, s.phase c = some (.waiting request job) →
    s.phase c' = some (.waiting request' job) → c = c'

variable {serializer viewerHtml config}

theorem ServeInv.busy_iff (h : ServeInv serializer viewerHtml config s) {request : Request} {job : GalleryJob}
    (hphase : s.phase connection = some .idle) (hhandle : handle viewerHtml config request = .job job) :
    (∃ t, s.step serializer viewerHtml config (.request connection request) = some t ∧
      t.answered = s.answered ++ [⟨request, (baseResponse config).setBusy, none⟩]) ↔
        ∃ running asked, s.galleryJobs.holders.lookup running = some asked := by
  have hnew : s.spawned ∉ s.galleryJobs.holders := fun hmem => by
    obtain ⟨asked, hasked⟩ := Table.mem_iff.mp hmem
    exact absurd (h.running _ _ hasked).1 (lt_irrefl _)
  have hstep : s.step serializer viewerHtml config (.request connection request) =
      some (s.handles viewerHtml config connection request) := by
    simp only [ServeState.step, hphase]
  have hbusy : s.galleryJobs.tryAcquire s.spawned (request, job) = none ↔
      ∃ running asked, s.galleryJobs.holders.lookup running = some asked := by
    rw [Semaphore.tryAcquire_eq_none hnew, ← size_pos]
    have hsize := s.galleryJobs.size_le
    unfold maxGalleryJobs at hsize ⊢
    omega
  rw [← hbusy, hstep]
  simp only [Option.some.injEq, exists_eq_left', ServeState.handles, hhandle]
  cases s.galleryJobs.tryAcquire s.spawned (request, job) with
  | none => exact iff_of_true rfl rfl
  | some galleryJobs =>
    refine iff_of_false (fun hanswered => ?_) (Option.some_ne_none _)
    exact absurd (List.self_eq_append_right.mp hanswered) (List.cons_ne_nil _ _)

theorem ServeInv.waits (h : ServeInv serializer viewerHtml config s) {request : Request} {job : ℕ}
    (hphase : s.phase connection = some (.waiting request job)) :
    (∃ task, s.galleryJobs.holders.lookup job = some (request, task)) ∨
      ∃ task taskRun t, s.ended.lookup job = some (request, task, taskRun) ∧
        s.step serializer viewerHtml config (.deliver connection) = some t ∧ t.answered =
          s.answered ++ [⟨request, jobResponse serializer config task (taskRun.jobEnd config task), some job⟩] := by
  refine (h.phases _ _ hphase).imp_right fun ⟨task, taskRun, hended⟩ => ?_
  refine ⟨task, taskRun, s.answers connection ⟨request, _, some job⟩, hended, ?_, rfl⟩
  simp only [ServeState.step, hphase, hended, Option.map_some]

theorem ServeInv.brings (h : ServeInv serializer viewerHtml config s) {answer : Answered}
    (hanswer : answer ∈ s.answered)
    {job : ℕ} {task : GalleryJob} {files : ServeFiles F} (htask : answer.task = some job)
    (hended : s.ended.lookup job = some (answer.request, task, .ends files)) (hok : answer.response.status = 200) :
    Brings serializer config files answer.response.body task := by
  obtain ⟨task', taskRun, hended', hresponse⟩ := h.results answer hanswer job htask
  cases hended.symm.trans hended'
  rw [hresponse] at hok ⊢
  exact jobResponse_brings hok

theorem handles_ended (connection : ℕ) (request : Request) :
    (s.handles viewerHtml config connection request).ended = s.ended := by
  unfold ServeState.handles
  cases handle viewerHtml config request with
  | job job =>
    dsimp only
    cases s.galleryJobs.tryAcquire s.spawned (request, job) <;> rfl
  | _ => rfl

theorem receives_ended (connection : ℕ) (request : Request) (received data : List UInt8) :
    (s.receives config connection request received data).ended = s.ended := by
  unfold ServeState.receives
  split <;> rfl

theorem collected_ended (connection : ℕ) (request : Request) (body : List UInt8) :
    (s.collected config connection request body).ended = s.ended := by
  unfold ServeState.collected
  split
  · rfl
  · split <;> rfl

/-- A task ends in a step of its own. -/
theorem ended_step {step : ServeStep F} (h : s.step serializer viewerHtml config step = some t) {job : ℕ}
    {asked : Request × GalleryJob × TaskRun F} (hended : t.ended.lookup job = some asked) :
    s.ended.lookup job = some asked ∨ step = asked.2.2.step job := by
  -- Only the steps that end a job touch `ended`; the others leave the entry where it was.
  have hends : ∀ {job' : ℕ} {taskRun : TaskRun F},
      (s.galleryJobs.holders.lookup job').map (fun asked => s.endsJob job' asked taskRun) = some t →
        s.ended.lookup job = some asked ∨ taskRun.step job' = asked.2.2.step job := by
    intro job' taskRun hstep
    obtain ⟨asked', -, rfl⟩ := Option.map_eq_some_iff.mp hstep
    obtain ⟨rfl, rfl⟩ | ⟨-, hold⟩ := Table.lookup_insert_eq_some.mp hended
    · exact .inr rfl
    · exact .inl hold
  cases step with
  | accept =>
    simp only [ServeState.step] at h
    split at h <;> cases h <;> exact .inl hended
  | request connection request =>
    simp only [ServeState.step] at h
    split at h
    · cases h
      exact .inl (handles_ended connection request ▸ hended)
    · cases h
  | frame connection data =>
    simp only [ServeState.step] at h
    split at h
    case h_1 request received _ =>
      cases h
      exact .inl (receives_ended connection request received data ▸ hended)
    case h_2 => cases h
  | bodyEnds connection =>
    simp only [ServeState.step] at h
    split at h
    case h_1 request received _ =>
      cases h
      exact .inl (collected_ended connection request received ▸ hended)
    case h_2 => cases h
  | bodyFails connection =>
    simp only [ServeState.step] at h
    split at h <;> cases h
    exact .inl hended
  | queryEnds connection result =>
    simp only [ServeState.step] at h
    split at h <;> cases h
    exact .inl hended
  | jobEnds job' files => exact hends h
  | jobPanics job' error => exact hends h
  | deliver connection =>
    simp only [ServeState.step] at h
    split at h
    · obtain ⟨_, -, rfl⟩ := Option.map_eq_some_iff.mp h
      exact .inl hended
    · cases h
  | close connection =>
    obtain ⟨_, -, rfl⟩ := Option.map_eq_some_iff.mp h
    exact .inl hended

/-- How a task ended is told by a step of the run. -/
theorem ended_mem {steps : List (ServeStep F)}
    (h : run (ServeState.step serializer viewerHtml config) {} steps = some s)
    {job : ℕ} {asked : Request × GalleryJob × TaskRun F} (hended : s.ended.lookup job = some asked) :
    asked.2.2.step job ∈ steps := by
  induction steps using List.reverseRecOn generalizing s with
  | nil =>
    cases h
    cases hended
  | append_singleton steps step ih =>
    obtain ⟨u, hu, hstep⟩ := run_snoc _ h
    obtain hold | rfl := ended_step hstep hended
    · exact List.mem_append_left _ (ih hu hold)
    · exact List.mem_append_right _ (List.mem_singleton_self _)

theorem ServeInv.sound {steps : List (ServeStep F)} (hinv : ServeInv serializer viewerHtml config s)
    (h : run (ServeState.step serializer viewerHtml config) {} steps = some s) :
    Sound serializer viewerHtml config steps s where
  connections := s.connections.size_le
  galleryJobs := s.galleryJobs.size_le
  worked := hinv.worked
  answered := hinv.answered
  results := hinv.results
  once := hinv.once
  ended := fun _ _ _ _ hended => ⟨(hinv.ended _ _ hended).2, ended_mem h hended⟩
  brings := fun _ hanswer _ _ _ htask hended hok => hinv.brings hanswer htask hended hok
  busy := fun _ _ _ hphase hhandle => hinv.busy_iff hphase hhandle
  waits := fun _ _ _ hphase => hinv.waits hphase
  alone := hinv.alone

/-- **The server answers what it may**, whatever the order of its steps. -/
theorem serve_sound {host : ServeHost} {args : ServeArgs} (hconfig : serveConfig host args = .ok config)
    {steps : List (ServeStep F)} (h : run (ServeState.step serializer viewerHtml config) {} steps = some s) :
    Accepted host args config ∧ Sound serializer viewerHtml config steps s := by
  have hinv : ServeInv serializer viewerHtml config s :=
    run_inv' _ (fun _ _ _ hs ht => hs.step ht) (serveInv_start serializer viewerHtml config) h
  exact ⟨accepted_of_serveConfig hconfig, hinv.sound h⟩

end

/-! Two clients of a server with a token; the second asks while the first's task runs. -/

def emptyGallery : ServeFiles ℕ where
  readDir := fun _ => .ok []
  display := fun _ => "out"
  length := fun _ => .error "missing"
  contents := fun _ _ => none
  parseJson := fun _ => none
  digest := fun filename => filename
  read := fun _ => .error "missing"
  decode := fun _ => .error "missing"

def plainSerializer : Serializer ℕ where
  entries := fun entries => [utf8 ['['], List.replicate entries.length 0, utf8 [']']]
  profile := fun _ _ => []

def remoteHost : ServeHost where
  isFile := fun _ => false
  isDir := fun directory => directory = "out"
  metadata := fun _ => .error "missing"
  display := fun _ => "out"
  headerValue := fun _ => true

def remoteArgs : ServeArgs where
  directory := some "out"
  loopback := false
  bearerToken := some "secret"

def remoteConfig : ServeConfig where
  source := .directory "out"
  legacyProfile := none
  loopback := false
  token := some "secret"
  corsOrigin := none
  guarded := .inr (by decide)

theorem serveConfig_remote : serveConfig remoteHost remoteArgs = .ok remoteConfig := rfl

def twoClients : List (ServeStep ℕ) :=
  [.accept, .accept, .request 0 ⟨.get, "/api/profiles", none, none⟩,
    .request 0 ⟨.get, "/api/profiles", some "Bearer secret", none⟩,
    .request 1 ⟨.get, "/api/profile/ab", some "Bearer secret", none⟩, .jobEnds 0 emptyGallery, .deliver 0]

theorem serve_sound_busy : ∃ s, run (ServeState.step plainSerializer [] remoteConfig) {} twoClients = some s ∧
    s.answered.map (fun answer => (answer.response.status, answer.response.body, answer.task)) =
      [(401, [], none), (503, utf8 "profile decoder is busy\n".toList, none), (200, utf8 "[]".toList, some 0)] ∧
    Accepted remoteHost remoteArgs remoteConfig ∧ Sound plainSerializer [] remoteConfig twoClients s := by
  have hanswers : (run (ServeState.step plainSerializer [] remoteConfig) {} twoClients).map
      (fun s => s.answered.map fun answer => (answer.response.status, answer.response.body, answer.task)) =
        some [(401, [], none), (503, utf8 "profile decoder is busy\n".toList, none),
          (200, utf8 "[]".toList, some 0)] := by
    decide +kernel
  obtain ⟨s, hrun, hs⟩ := Option.map_eq_some_iff.mp hanswers
  exact ⟨s, hrun, hs, serve_sound serveConfig_remote hrun⟩

end Serve

end RustProfile
