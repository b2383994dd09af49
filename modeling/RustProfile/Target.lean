import RustProfile.WindowProfiles

/-!
# The target of a session

A process, a container or a Kubernetes container, resolved once at the start.
When the target exits, the resolver is asked again and again until the same
target runs in another process. What Docker, Kubernetes and procfs answer at the
time is a `TargetWorld`.
-/

namespace RustProfile

/-! ## Texts -/

/-- `str::split_once`. -/
def splitOnce (pattern : List Char) : List Char → Option (List Char × List Char)
  | [] => if pattern = [] then some ([], []) else none
  | c :: cs =>
    if pattern <+: c :: cs then some ([], (c :: cs).drop pattern.length)
    else (splitOnce pattern cs).map fun parts => (c :: parts.1, parts.2)

/-- `str::split_whitespace`. -/
def splitWhitespace (s : List Char) : List (List Char) := (s.splitOnP isWhitespace).filter (· ≠ [])

/-- `str::lines`. -/
def lines (s : List Char) : List (List Char) :=
  let parts := s.splitOn '\n'
  let parts := if parts.getLast? = some [] then parts.dropLast else parts
  parts.map fun line => if line.getLast? = some '\r' then line.dropLast else line

def parseDigits (s : List Char) : Option ℕ :=
  if s ≠ [] ∧ s.all Char.isDigit then some (s.foldl (fun n c => n * 10 + (c.toNat - '0'.toNat)) 0) else none

def parseU64 (s : List Char) : Option ℕ :=
  (parseDigits (if s.head? = some '+' then s.tail else s)).filter (· ≤ u64Max)

def parseI32 (s : List Char) : Option ℤ :=
  match s with
  | '-' :: digits => ((parseDigits digits).filter (· ≤ 2 ^ 31)).map fun n => -(n : ℤ)
  | '+' :: digits => ((parseDigits digits).filter (· < 2 ^ 31)).map (↑)
  | digits => ((parseDigits digits).filter (· < 2 ^ 31)).map (↑)

/-- `str::trim`. -/
def trim (s : String) : String := String.ofList ((trimEnd s).toList.dropWhile isWhitespace)

/-! ## What the resolver is told -/

inductive IoErrorKind where
  | notFound
  | other
  deriving DecidableEq, Repr

/-- An error with the I/O error that it stems from, if it does. -/
structure TargetError where
  io : Option IoErrorKind
  message : String
  deriving DecidableEq, Repr

structure DockerState where
  running : Bool
  pid : ℤ

structure DockerInspect where
  id : String
  name : String
  state : DockerState

structure ContainerStatus where
  name : String
  containerId : Option String

structure Pod where
  uid : String
  nodeName : Option String
  containers : List String
  containerStatuses : List ContainerStatus

/-- An entry of the proc directory. A file that cannot be read is `none`. -/
structure ProcEntry where
  fileName : String
  cgroup : Option String
  status : Option String

/-- What the APIs, procfs and the environment answer while a target is resolved. -/
structure TargetWorld where
  dockerInspect : String → Except TargetError (Option DockerInspect)
  kubernetesPod : String → String → Except TargetError (Option Pod)
  nodeName : Option String
  procEntries : Except IoErrorKind (List (Except IoErrorKind ProcEntry))
  stat : ℤ → Except IoErrorKind String

/-! ## Targets -/

inductive TargetKind where
  | process
  | docker
  | kubernetes
  deriving DecidableEq, Repr

structure ResolvedMetadata extends TargetMetadata where
  kind : TargetKind
  processStartTimeTicks : ℕ
  deriving DecidableEq, Repr

structure ResolvedTarget where
  pid : ℤ
  metadata : ResolvedMetadata
  deriving DecidableEq, Repr

inductive LogicalIdentity where
  | process (pid : ℤ) (startTimeTicks : ℕ)
  | docker (containerId : String)
  | kubernetes (podNamespace pod podUid container : String)
  deriving DecidableEq, Repr

inductive Selector where
  | process (pid : ℤ)
  | docker (reference : String)
  | kubernetes (podNamespace pod : String) (container : Option String)
  deriving DecidableEq, Repr

structure TargetArgs where
  pid : Option ℤ := none
  dockerContainer : Option String := none
  k8sPod : Option String := none
  container : Option String := none

def Selector.fromArgs (args : TargetArgs) : Except TargetError Selector :=
  let bail (message : String) : Except TargetError Selector := .error ⟨none, message⟩
  match args.pid, args.dockerContainer, args.k8sPod with
  | some pid, _, _ => .ok (.process pid)
  | none, some reference, _ =>
    if trim reference = "" then bail "--docker-container must not be empty" else .ok (.docker (trim reference))
  | none, none, none => bail "one target selector is required"
  | none, none, some pod =>
    match splitOnce ['/'] pod.toList with
    | none => bail "--k8s-pod must use NAMESPACE/NAME format"
    | some (podNamespace, name) =>
      if podNamespace = [] ∨ name = [] ∨ '/' ∈ name then bail "--k8s-pod must use NAMESPACE/NAME format"
      else .ok (.kubernetes (String.ofList podNamespace) (String.ofList name) args.container)

namespace TargetWorld

variable (self : TargetWorld)

def processStartTime (pid : ℤ) : Except TargetError ℕ :=
  match self.stat pid with
  | .error kind => .error ⟨some kind, "failed to read process " ++ toString pid ++ " start time"⟩
  | .ok stat =>
    -- the name in parentheses may itself have parentheses
    if ')' ∉ stat.toList then .error ⟨none, "invalid proc stat format"⟩
    else
      let afterName := (stat.toList.reverse.takeWhile (· ≠ ')')).reverse
      match (splitWhitespace afterName)[19]? with
      | none => .error ⟨none, "proc stat is missing starttime"⟩
      | some field =>
        match parseU64 field with
        | none => .error ⟨none, "invalid process starttime"⟩
        | some ticks => .ok ticks

def processMetadata (pid : ℤ) (startTimeTicks : ℕ) : ResolvedMetadata :=
  { pid := pid, kind := .process, processStartTimeTicks := startTimeTicks }

/-- Whether a process is the first of its namespace, where its status says so. -/
def isInit (status : String) : Option Bool :=
  (lines status.toList).findSome? fun line =>
    if "NSpid:".toList <+: line then some ((splitWhitespace (line.drop 6)).getLast? = some ['1']) else none

/-- The number of the process if it is the first of the container. -/
def containerInit (containerId : String) (entry : ProcEntry) : Option ℤ := do
  let pid ← parseI32 entry.fileName.toList
  let cgroup ← entry.cgroup
  if containerId.toList <:+: cgroup.toList then
    let status ← entry.status
    if isInit status = some true then some pid else none
  else none

def lowestInit (containerId : String) (found : Option ℤ) :
    List (Except IoErrorKind ProcEntry) → Except TargetError (Option ℤ)
  | [] => .ok found
  | .error kind :: _ => .error ⟨some kind, ""⟩
  | .ok entry :: entries =>
    match containerInit containerId entry with
    | none => lowestInit containerId found entries
    | some pid => lowestInit containerId (some (found.elim pid (min · pid))) entries

def findContainerInitPid (containerId : String) : Except TargetError (Option ℤ) :=
  match self.procEntries with
  | .error kind => .error ⟨some kind, "failed to read procfs"⟩
  | .ok entries => lowestInit containerId none entries

def dockerTarget (inspect : DockerInspect) : Except TargetError (Option ResolvedTarget) :=
  if !inspect.state.running ∨ inspect.state.pid ≤ 0 then .ok none
  else do
    let startTimeTicks ← self.processStartTime inspect.state.pid
    return some
      { pid := inspect.state.pid
        metadata :=
          { pid := inspect.state.pid
            kind := .docker
            processStartTimeTicks := startTimeTicks
            containerId := some inspect.id
            containerName := some (String.ofList (inspect.name.toList.dropWhile (· = '/'))) } }

/-- The container's number without the runtime's name in front. -/
def runtimeId (containerId : String) : String :=
  (splitOnce "://".toList containerId.toList).elim containerId fun parts => String.ofList parts.2

def isHexDigit (c : Char) : Bool := c.isDigit || ('a' ≤ c && c ≤ 'f') || ('A' ≤ c && c ≤ 'F')

def kubernetesTarget (podNamespace podName : String) (pod : Pod) (container : String) :
    Except TargetError (Option ResolvedTarget) :=
  match self.nodeName with
  | none => .error ⟨none, "NODE_NAME is not set; the Kubernetes DaemonSet must inject spec.nodeName"⟩
  | some expectedNode =>
    let actualNode := pod.nodeName.getD ""
    if actualNode ≠ expectedNode then
      .error ⟨none, "Pod " ++ podNamespace ++ "/" ++ podName ++ " runs on node " ++ actualNode.quote ++
        ", not profiler node " ++ expectedNode.quote⟩
    else
      match (pod.containerStatuses.find? (·.name = container)).bind ContainerStatus.containerId with
      | none => .ok none
      | some containerId =>
        let id := runtimeId containerId
        if containerId = "" then .ok none
        else if id.toList.length < 12 ∨ !id.toList.all isHexDigit then
          .error ⟨none, "unsupported Kubernetes container ID " ++ containerId.quote⟩
        else do
          match ← self.findContainerInitPid id with
          | none => return none
          | some pid =>
            let startTimeTicks ← self.processStartTime pid
            return some
              { pid := pid
                metadata :=
                  { pid := pid
                    kind := .kubernetes
                    processStartTimeTicks := startTimeTicks
                    containerId := some id
                    k8sNamespace := some podNamespace
                    k8sPodName := some podName
                    k8sPodUid := some pod.uid
                    k8sContainerName := some container
                    k8sNodeName := pod.nodeName } }

end TargetWorld

def selectContainer (pod : Pod) (requested : Option String) : Except TargetError String :=
  match requested with
  | some requested =>
    if requested ∈ pod.containers then .ok requested
    else .error ⟨none, "container " ++ requested.quote ++ " is not an application container in the selected Pod"⟩
  | none =>
    match pod.containers with
    | [container] => .ok container
    | [] => .error ⟨none, "selected Pod has no application containers"⟩
    | _ => .error ⟨none, "selected Pod has multiple application containers; specify --container"⟩

/-- `Option::context`. -/
def orError {α : Type} (message : String) : Option α → Except TargetError α
  | some a => .ok a
  | none => .error ⟨none, message⟩

def Selector.resolveInitial (world : TargetWorld) : Selector → Except TargetError (LogicalIdentity × ResolvedTarget)
  | .process pid => do
    let startTimeTicks ← world.processStartTime pid
    return (.process pid startTimeTicks, { pid := pid, metadata := TargetWorld.processMetadata pid startTimeTicks })
  | .docker reference => do
    let inspect ← orError ("Docker container " ++ reference.quote ++ " was not found") (← world.dockerInspect reference)
    let target ← orError "Docker container is not running" (← world.dockerTarget inspect)
    return (.docker inspect.id, target)
  | .kubernetes podNamespace pod container => do
    let report ← orError ("Kubernetes pod " ++ podNamespace ++ "/" ++ pod ++ " was not found")
      (← world.kubernetesPod podNamespace pod)
    let container ← selectContainer report container
    let target ← orError "Kubernetes container is not running"
      (← world.kubernetesTarget podNamespace pod report container)
    return (.kubernetes podNamespace pod report.uid container, target)

/-! ## Resolving again -/

inductive Resolution where
  | running (target : ResolvedTarget)
  | waiting
  | gone
  deriving DecidableEq, Repr

inductive TargetState where
  | running
  | waiting
  | gone
  deriving DecidableEq, Repr

def processDisappeared (error : TargetError) : Bool := error.io = some .notFound

/-- A container without a process is waited for. -/
def resolutionOf : Except TargetError (Option ResolvedTarget) → Except TargetError Resolution
  | .ok target => .ok (target.elim .waiting .running)
  | .error error => if processDisappeared error then .ok .waiting else .error error

def LogicalIdentity.resolveAgain (world : TargetWorld) : LogicalIdentity → Except TargetError Resolution
  | .process pid startTimeTicks =>
    match world.processStartTime pid with
    | .ok current =>
      if current = startTimeTicks then
        .ok (.running { pid := pid, metadata := TargetWorld.processMetadata pid current })
      else .ok .gone
    | .error _ => .ok .gone
  | .docker containerId => do
    match ← world.dockerInspect containerId with
    | none => return .gone
    | some inspect => if inspect.id ≠ containerId then return .gone else resolutionOf (world.dockerTarget inspect)
  | .kubernetes podNamespace pod podUid container => do
    match ← world.kubernetesPod podNamespace pod with
    | none => return .gone
    | some report =>
      if report.uid ≠ podUid then return .gone
      else resolutionOf (world.kubernetesTarget podNamespace pod report container)

structure TargetResolver where
  selector : Selector
  identity : LogicalIdentity
  last : ResolvedTarget
  deriving DecidableEq, Repr

namespace TargetResolver

def resolveInitial (args : TargetArgs) (world : TargetWorld) : Except TargetError TargetResolver := do
  let selector ← Selector.fromArgs args
  let (identity, last) ← selector.resolveInitial world
  return { selector := selector, identity := identity, last := last }

variable (self : TargetResolver)

def current : ResolvedTarget := self.last

def refresh (world : TargetWorld) : Except TargetError TargetState × TargetResolver :=
  match self.identity.resolveAgain world with
  | .ok (.running target) => (.ok .running, { self with last := target })
  | .ok .waiting => (.ok .waiting, self)
  | .ok .gone => (.ok .gone, self)
  | .error error => (.error error, self)

/-- A turn of the loop is `none` when the session is stopped or its deadline reached, else what the world answers.
The result is `none` while the loop goes on. -/
def waitForRestartedTarget (previous : ResolvedMetadata) :
    List (Option TargetWorld) → TargetResolver → Option (Except TargetError (Option ResolvedTarget)) × TargetResolver
  | [], self => (none, self)
  | none :: _, self => (some (.ok none), self)
  | some world :: turns, self =>
    match self.refresh world with
    | (.ok .running, self) =>
      if self.current.pid ≠ previous.pid ∨
          self.current.metadata.processStartTimeTicks ≠ previous.processStartTimeTicks then
        (some (.ok (some self.current)), self)
      else waitForRestartedTarget previous turns self
    | (.ok .waiting, self) => waitForRestartedTarget previous turns self
    | (.ok .gone, self) => (some (.ok none), self)
    | (.error error, self) => (some (.error error), self)

end TargetResolver

end RustProfile
