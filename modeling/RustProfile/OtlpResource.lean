import Mathlib.Data.List.Sort
import RustProfile.Otlp
import RustProfile.Target

/-!
# The resource of an export

The attributes that a user configures are merged with what is known about the
target in a map, where the target's values replace the user's. The pid and the
kind of the target are added behind the map's entries.
-/

namespace RustProfile

namespace Otlp

/-! ## Configured attributes -/

/-- What the user sets: `OTEL_RESOURCE_ATTRIBUTES`, the arguments, and `OTEL_SERVICE_NAME`. -/
structure ResourceSettings where
  environment : String := ""
  arguments : List String := []
  serviceName : Option String := none

/-- The key of `KEY=VALUE`. -/
def pairKey (input : List Char) : Option String := (splitOnce ['='] input).map fun pair => trim (String.ofList pair.1)

def insertPair (field : String) (pairs : Table String String) (input : List Char) :
    Except String (Table String String) :=
  match splitOnce ['='] input with
  | none => .error (field ++ " must use KEY=VALUE format")
  | some (key, value) =>
    let key := trim (String.ofList key)
    if key = "" then .error (field ++ " key must not be empty")
    else .ok (pairs.insert key (trim (String.ofList value)))

def insertPairs (field : String) : Table String String → List (List Char) → Except String (Table String String)
  | pairs, [] => .ok pairs
  | pairs, input :: inputs =>
    match insertPair field pairs input with
    | .ok pairs => insertPairs field pairs inputs
    | .error error => .error error

/-- The parts of a list that are not blank. -/
def pairsOf (delimiter : Char) (input : String) : List (List Char) :=
  (input.toList.splitOn delimiter).filter fun value => trim (String.ofList value) ≠ ""

def parsePairs (input : String) (delimiter : Char) (field : String) : Except String (Table String String) :=
  insertPairs field ∅ (pairsOf delimiter input)

namespace ResourceSettings

variable (self : ResourceSettings)

/-- The resource attributes of `OtlpConfig::from_args`. -/
def resourceAttributes : Except String (Table String String) :=
  match parsePairs self.environment ',' "resource attribute" with
  | .error error => .error error
  | .ok attributes =>
    match insertPairs "resource attribute" attributes (self.arguments.map String.toList) with
    | .error error => .error error
    | .ok attributes =>
      match self.serviceName with
      | some serviceName =>
        if serviceName = "" then .ok attributes else .ok (attributes.insert "service.name" serviceName)
      | none => .ok attributes

def Names (key : String) : Prop :=
  ∃ pair ∈ pairsOf ',' self.environment ++ self.arguments.map String.toList, pairKey pair = some key

end ResourceSettings

end Otlp

/-! ## The resource -/

/-- `Path::file_name`: the last component, if it names a file. -/
def PathBuf.fileName (self : PathBuf) : Option PathBuf :=
  let components := (self.bytes.splitOn 47).filter fun component => component ≠ [] ∧ component ≠ [46]
  components.getLast?.bind fun name => if name = [46, 46] then none else some ⟨name⟩

/-- `OsStr::to_str`: the text, if the bytes are those of one. -/
def PathBuf.toStr (self : PathBuf) : Option String :=
  let text := self.toStringLossy
  if text.toList.flatMap String.utf8EncodeChar = self.bytes then some text else none

namespace Otlp

def stringKeyValue (key value : String) : KeyValue := ⟨key, .string value⟩

def kindName : TargetKind → String
  | .process => "process"
  | .docker => "docker"
  | .kubernetes => "kubernetes"

def serviceName (executable : PathBuf) : String :=
  match executable.fileName.bind PathBuf.toStr with
  | some name => "unknown_service:" ++ name
  | none => "unknown_service"

/-- What is known about the target. -/
def identityAttributes (target : ResolvedMetadata) (executable : PathBuf) : List (String × Option String) :=
  [("process.executable.path", some executable.toStringLossy),
    ("process.executable.name", executable.fileName.bind PathBuf.toStr),
    ("container.id", target.containerId), ("container.name", target.containerName),
    ("k8s.namespace.name", target.k8sNamespace), ("k8s.pod.name", target.k8sPodName),
    ("k8s.pod.uid", target.k8sPodUid), ("k8s.container.name", target.k8sContainerName),
    ("k8s.node.name", target.k8sNodeName)]

def insertIdentity (attributes : Table String String) (detected : String × Option String) : Table String String :=
  match detected.2 with
  | some value => attributes.insert detected.1 value
  | none => attributes

/-- The map before it is flattened. -/
def mergedAttributes (target : ResolvedMetadata) (executable : PathBuf) (configured : Table String String) :
    Table String String :=
  let attributes :=
    if "service.name" ∈ configured then configured else configured.insert "service.name" (serviceName executable)
  (identityAttributes target executable).foldl insertIdentity attributes

def sortedEntries (attributes : Table String String) : List (Σ _ : String, String) :=
  attributes.entries.insertionSort fun a b => a.1 ≤ b.1

def resource (target : ResolvedMetadata) (executable : PathBuf) (configured : Table String String) : List KeyValue :=
  (sortedEntries (mergedAttributes target executable configured)).map (fun e => stringKeyValue e.1 e.2) ++
    [⟨"process.pid", .int target.pid⟩, stringKeyValue "rustprofile.target.kind" (kindName target.kind)]

/-- The only attribute of the key has the value. -/
def HasOnly (attributes : List KeyValue) (key : String) (value : AnyValue) : Prop :=
  attributes.filter (fun entry => entry.key = key) = [⟨key, value⟩]

/-- No key stands twice, and what is known about the target is said. -/
structure Identifies (target : ResolvedMetadata) (executable : PathBuf) (attributes : List KeyValue) : Prop where
  distinct : (attributes.map KeyValue.key).Nodup
  pid : HasOnly attributes "process.pid" (.int target.pid)
  kind : HasOnly attributes "rustprofile.target.kind" (.string (kindName target.kind))
  identity : ∀ key value, (key, some value) ∈ identityAttributes target executable →
    HasOnly attributes key (.string value)

end Otlp

end RustProfile
