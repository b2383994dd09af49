import Mathlib.Data.String.Basic
import RustProfile.Lib.Fallible
import RustProfile.OtlpResourceSound

/-!
# The configuration of the export

`from_args` reads it from the command line and the environment. An argument goes
before the variable that is for profiles, and that before the general one. What
a configuration has passed is part of it.
-/

namespace RustProfile

namespace Otlp

inductive OtlpCompression where
  | none
  | gzip
  deriving DecidableEq, Repr

structure OtlpArgs where
  otlpEndpoint : Option String := none
  otlpHeaders : List String := []
  otlpTimeout : Option ℕ := none
  otlpCompression : Option OtlpCompression := none
  otlpCa : Option PathBuf := none
  resourceAttributes : List String := []

structure OtlpEnvironment where
  varOs : String → Option PathBuf
  isFile : PathBuf → Bool

def OtlpEnvironment.var (self : OtlpEnvironment) (name : String) : Option String := (self.varOs name).bind PathBuf.toStr

inductive OtlpConfigError where
  | message (text : String)
  /-- `rustprofile OTLP Profiles supports only http/protobuf, not {protocol:?}` -/
  | protocol (protocol : String)
  /-- `unsupported OTLP compression {value:?}` -/
  | compression (value : String)
  deriving DecidableEq, Repr

/-! ## What is checked -/

def authority (endpoint : String) : List Char :=
  match splitOnce "://".toList endpoint.toList with
  | some (_, rest) => (rest.splitOn '/').headD []
  | none => []

/-- A URL with a host and without credentials. -/
structure EndpointFits (endpoint : String) : Prop where
  scheme : "http://".toList <+: endpoint.toList ∨ "https://".toList <+: endpoint.toList
  host : authority endpoint ≠ []
  noCredentials : '@' ∉ authority endpoint

def OneLine (s : String) : Prop := '\r' ∉ s.toList ∧ '\n' ∉ s.toList

instance (s : String) : Decidable (OneLine s) := inferInstanceAs (Decidable (_ ∧ _))

def HeadersFit (headers : Table String String) : Prop := ∀ header ∈ headers.entries, OneLine header.1 ∧ OneLine header.2

instance (headers : Table String String) : Decidable (HeadersFit headers) :=
  inferInstanceAs (Decidable (∀ header ∈ headers.entries, _))

/-- The timeout is in nanoseconds. -/
structure OtlpConfig where
  endpoint : String
  headers : Table String String
  timeout : ℕ
  compression : OtlpCompression
  ca : Option PathBuf
  resourceAttributes : Table String String
  endpointFits : EndpointFits endpoint
  headersFit : HeadersFit headers
  timeoutPos : 0 < timeout

/-- The headers in the order in which they are sent. -/
def OtlpConfig.sentHeaders (self : OtlpConfig) : List (String × String) :=
  (sortedEntries self.headers).map fun header => (header.1, header.2)

def validateEndpoint (endpoint : String) : Except OtlpConfigError {endpoint : String // EndpointFits endpoint} :=
  if hscheme : "http://".toList <+: endpoint.toList ∨ "https://".toList <+: endpoint.toList then
    if hauthority : authority endpoint ≠ [] ∧ '@' ∉ authority endpoint then
      .ok ⟨endpoint, hscheme, hauthority.1, hauthority.2⟩
    else .error (.message "OTLP endpoint must have a host and must not contain credentials")
  else .error (.message "OTLP endpoint must be an http:// or https:// URL")

/-- `trim_end_matches('/')`, and the path of the profiles. -/
def appendProfilesPath (base : String) : String :=
  String.ofList (base.toList.reverse.dropWhile (· = '/')).reverse ++ "/v1development/profiles"

/-! ## Reading it -/

section
variable (env : OtlpEnvironment) (args : OtlpArgs)

/-- The variable for profiles, or else the general one. -/
def OtlpEnvironment.either (profiles general : String) : Option String := (env.var profiles).or (env.var general)

def endpointOf : Option String :=
  (args.otlpEndpoint.or (env.var "OTEL_EXPORTER_OTLP_PROFILES_ENDPOINT")).or
    ((env.var "OTEL_EXPORTER_OTLP_ENDPOINT").map appendProfilesPath)

def environmentHeaders : String :=
  (env.either "OTEL_EXPORTER_OTLP_PROFILES_HEADERS" "OTEL_EXPORTER_OTLP_HEADERS").getD ""

def headersOf : Except OtlpConfigError {headers : Table String String // HeadersFit headers} := do
  let headers ← (parsePairs (environmentHeaders env) ',' "OTLP header").mapError .message
  let headers ← (insertPairs "OTLP header" headers (args.otlpHeaders.map String.toList)).mapError .message
  if h : HeadersFit headers then .ok ⟨headers, h⟩ else .error (.message "OTLP headers must not contain newlines")

def defaultTimeout : ℕ := 10 * 10 ^ 9

def timeoutOf : Except OtlpConfigError {timeout : ℕ // 0 < timeout} := do
  let timeout ←
    match args.otlpTimeout with
    | some timeout => .ok timeout
    | none =>
      match env.either "OTEL_EXPORTER_OTLP_PROFILES_TIMEOUT" "OTEL_EXPORTER_OTLP_TIMEOUT" with
      | some value =>
        match parseU64 value.toList with
        | some millis => .ok (millis * 10 ^ 6)
        | none => .error (.message "OTLP timeout environment value must be milliseconds")
      | none => .ok defaultTimeout
  if h : 0 < timeout then .ok ⟨timeout, h⟩ else .error (.message "OTLP timeout must be greater than zero")

def compressionOf : Except OtlpConfigError OtlpCompression :=
  let configured := env.either "OTEL_EXPORTER_OTLP_PROFILES_COMPRESSION" "OTEL_EXPORTER_OTLP_COMPRESSION"
  match args.otlpCompression, configured with
  | some compression, _ => .ok compression
  | none, none => .ok .gzip
  | none, some value =>
    if value = "none" then .ok .none else if value = "gzip" then .ok .gzip else .error (.compression value)

def caOf : Except OtlpConfigError (Option PathBuf) :=
  let ca := (args.otlpCa.or (env.varOs "OTEL_EXPORTER_OTLP_PROFILES_CERTIFICATE")).or
    (env.varOs "OTEL_EXPORTER_OTLP_CERTIFICATE")
  if ca.any fun path => !env.isFile path then
    .error (.message "OTLP certificate file does not exist or is not a file")
  else .ok ca

def resourceSettings : ResourceSettings where
  environment := (env.var "OTEL_RESOURCE_ATTRIBUTES").getD ""
  arguments := args.resourceAttributes
  serviceName := env.var "OTEL_SERVICE_NAME"

/-- `OtlpConfig::from_args`: without an endpoint there is nothing to configure. -/
def OtlpConfig.fromArgs : Except OtlpConfigError (Option OtlpConfig) :=
  match endpointOf env args with
  | none => .ok none
  | some endpoint => do
    let endpoint ← validateEndpoint endpoint
    let protocol :=
      (env.either "OTEL_EXPORTER_OTLP_PROFILES_PROTOCOL" "OTEL_EXPORTER_OTLP_PROTOCOL").getD "http/protobuf"
    if protocol ≠ "http/protobuf" then throw (.protocol protocol)
    let headers ← headersOf env args
    let timeout ← timeoutOf env args
    let compression ← compressionOf env args
    let ca ← caOf env args
    let resourceAttributes ← (resourceSettings env args).resourceAttributes.mapError .message
    return some ⟨endpoint, headers, timeout, compression, ca, resourceAttributes, endpoint.2, headers.2, timeout.2⟩

end

/-! ## The headers -/

theorem mapError_eq_ok {ε ε' α : Type} {x : Except ε α} {f : ε → ε'} {a : α} (h : x.mapError f = .ok a) :
    x = .ok a := by
  cases x with
  | error e => cases h
  | ok b => cases h; rfl

/-- `KEY=VALUE` with both sides trimmed. -/
def pairOf (input : List Char) : Option (String × String) :=
  (splitOnce ['='] input).map fun pair => (trim (String.ofList pair.1), trim (String.ofList pair.2))

def lastValue (key : String) : List (List Char) → Option String
  | [] => none
  | input :: inputs =>
    (lastValue key inputs).or ((pairOf input).bind fun pair => if pair.1 = key then some pair.2 else none)

theorem lastValue_append (key : String) : ∀ as bs : List (List Char),
    lastValue key (as ++ bs) = (lastValue key bs).or (lastValue key as)
  | [], bs => (Option.or_none).symm
  | a :: as, bs => by
    rw [List.cons_append, lastValue, lastValue, lastValue_append key as bs, Option.or_assoc]

theorem lookup_insertPair {field key : String} {pairs pairs' : Table String String} {input : List Char}
    (h : insertPair field pairs input = .ok pairs') :
    pairs'.lookup key = (lastValue key [input]).or (pairs.lookup key) := by
  unfold insertPair at h
  unfold lastValue lastValue pairOf
  cases hsplit : splitOnce ['='] input with
  | none =>
    rw [hsplit] at h
    cases h
  | some pair =>
    rw [hsplit] at h
    dsimp only at h
    split at h
    · cases h
    · cases h
      rw [Table.lookup_insert]
      by_cases hkey : trim (String.ofList pair.1) = key
      · simp [hkey]
      · simp [hkey, Ne.symm hkey]

theorem lookup_insertPairs {field : String} (key : String) : ∀ {inputs : List (List Char)}
    {pairs pairs' : Table String String},
    insertPairs field pairs inputs = .ok pairs' → pairs'.lookup key = (lastValue key inputs).or (pairs.lookup key)
  | [], _, _, h => by
    cases h
    rfl
  | input :: inputs, pairs, pairs', h => by
    unfold insertPairs at h
    cases hfirst : insertPair field pairs input with
    | error error =>
      rw [hfirst] at h
      cases h
    | ok first =>
      rw [hfirst] at h
      rw [lookup_insertPairs key h, lookup_insertPair hfirst, ← Option.or_assoc, ← lastValue_append]
      rfl

section
variable {env : OtlpEnvironment} {args : OtlpArgs}

def headerPairs (env : OtlpEnvironment) (args : OtlpArgs) : List (List Char) :=
  pairsOf ',' (environmentHeaders env) ++ args.otlpHeaders.map String.toList

theorem headersOf_lookup {headers : {headers : Table String String // HeadersFit headers}}
    (h : headersOf env args = .ok headers) (key : String) :
    headers.1.lookup key = lastValue key (headerPairs env args) := by
  unfold headersOf at h
  obtain ⟨first, hfirst, h⟩ := Except.bind_eq_ok.mp h
  obtain ⟨second, hsecond, h⟩ := Except.bind_eq_ok.mp h
  split at h
  case isFalse => cases h
  case isTrue =>
    cases h
    have henvironment := lookup_insertPairs key (mapError_eq_ok hfirst)
    have harguments := lookup_insertPairs key (mapError_eq_ok hsecond)
    rw [harguments, henvironment, AList.lookup_empty, Option.or_none, headerPairs, lastValue_append]

theorem fromArgs_headersOf {config : OtlpConfig} (h : OtlpConfig.fromArgs env args = .ok (some config)) :
    ∃ fits, headersOf env args = .ok ⟨config.headers, fits⟩ := by
  unfold OtlpConfig.fromArgs at h
  cases hendpoint : endpointOf env args with
  | none =>
    rw [hendpoint] at h
    cases h
  | some endpoint =>
    rw [hendpoint] at h
    obtain ⟨endpoint, -, h⟩ := Except.bind_eq_ok.mp h
    dsimp only at h
    split at h
    · cases h
    obtain ⟨headers, hheaders, h⟩ := Except.bind_eq_ok.mp h
    obtain ⟨timeout, -, h⟩ := Except.bind_eq_ok.mp h
    obtain ⟨compression, -, h⟩ := Except.bind_eq_ok.mp h
    obtain ⟨ca, -, h⟩ := Except.bind_eq_ok.mp h
    obtain ⟨attributes, -, h⟩ := Except.bind_eq_ok.mp h
    cases h
    exact ⟨headers.2, hheaders⟩

theorem sortedEntries_sorted (headers : Table String String) :
    ((sortedEntries headers).map Sigma.fst).Pairwise (· < ·) := by
  have hnodup : ((sortedEntries headers).map Sigma.fst).Nodup :=
    ((sortedEntries_perm headers).map Sigma.fst).nodup_iff.mpr headers.nodupKeys
  have hsorted : ((sortedEntries headers).map Sigma.fst).Pairwise (· ≤ ·) := by
    rw [List.pairwise_map]
    exact List.pairwise_insertionSort (fun a b : Σ _ : String, String => a.1 ≤ b.1) headers.entries
  exact hsorted.imp₂ (fun _ _ hle hne => lt_of_le_of_ne hle hne) hnodup

/-- **What the environment and the arguments say of the headers** is what is sent, in the order of their names. -/
theorem fromArgs_headers {config : OtlpConfig} (h : OtlpConfig.fromArgs env args = .ok (some config)) :
    (config.sentHeaders.map Prod.fst).Pairwise (· < ·) ∧
      (∀ key value, (key, value) ∈ config.sentHeaders ↔ lastValue key (headerPairs env args) = some value) ∧
      ∀ header ∈ config.sentHeaders, OneLine header.1 ∧ OneLine header.2 := by
  obtain ⟨fits, hheaders⟩ := fromArgs_headersOf h
  refine ⟨?_, fun key value => ?_, fun header hmem => ?_⟩
  · have hsorted := sortedEntries_sorted config.headers
    simpa [OtlpConfig.sentHeaders, List.map_map, Function.comp_def] using hsorted
  · rw [← headersOf_lookup hheaders key, ← Table.mem_entries, ← (sortedEntries_perm config.headers).mem_iff]
    constructor
    · intro hmem
      obtain ⟨entry, hentry, hsame⟩ := List.mem_map.mp hmem
      cases hsame
      exact hentry
    · intro hmem
      exact List.mem_map.mpr ⟨_, hmem, rfl⟩
  · obtain ⟨entry, hentry, rfl⟩ := List.mem_map.mp hmem
    exact config.headersFit entry ((sortedEntries_perm config.headers).mem_iff.mp hentry)

def generalEnvironment : OtlpEnvironment where
  varOs := fun name =>
    if name = "OTEL_EXPORTER_OTLP_ENDPOINT" then some ⟨"http://collector:4318/".toList.flatMap String.utf8EncodeChar⟩
    else if name = "OTEL_EXPORTER_OTLP_HEADERS" then some ⟨"tenant=blue, token=a".toList.flatMap String.utf8EncodeChar⟩
    else none
  isFile := fun _ => false

theorem fromArgs_headers_token : ∃ config,
    OtlpConfig.fromArgs generalEnvironment { otlpHeaders := ["token=b"] } = .ok (some config) ∧
      config.endpoint = "http://collector:4318/v1development/profiles" ∧
      config.sentHeaders = [("tenant", "blue"), ("token", "b")] ∧
      ("token", "b") ∈ config.sentHeaders := by
  have hvalue : lastValue "token" (headerPairs generalEnvironment { otlpHeaders := ["token=b"] }) = some "b" := by
    decide +kernel
  have hconfig : (OtlpConfig.fromArgs generalEnvironment { otlpHeaders := ["token=b"] }).toOption.join.map
      (fun config => (config.endpoint, config.sentHeaders)) =
        some ("http://collector:4318/v1development/profiles", [("tenant", "blue"), ("token", "b")]) := by
    decide +kernel
  cases hread : OtlpConfig.fromArgs generalEnvironment { otlpHeaders := ["token=b"] } with
  | error error =>
    rw [hread] at hconfig
    cases hconfig
  | ok read =>
    rw [hread] at hconfig
    cases read with
    | none => cases hconfig
    | some config =>
      obtain ⟨hendpoint, hheaders⟩ := Prod.mk.inj (Option.some.inj hconfig)
      exact ⟨config, rfl, hendpoint, hheaders, ((fromArgs_headers hread).2.1 "token" "b").mpr hvalue⟩

end

end Otlp

end RustProfile
