import RustProfile.Json

/-!
# Decoding a Firefox profile for the viewer

The shared tables become a list of stacks, each the functions from the root to
the leaf, and the threads' columns become samples up to a limit for the whole
profile. Nothing in the file is trusted: an index read from it may be anything.
-/

namespace RustProfile

def maxViewerSamples : ℕ := 65536
def maxViewerStacks : ℕ := 65536
def maxViewerFunctions : ℕ := 262144
def maxViewerThreads : ℕ := 4096
def maxStackDepth : ℕ := 512

structure ViewerThread (F : Type) where
  pid : String
  tid : String
  name : String
  timesMillis : List F
  weights : List ℤ
  cpuDeltaMicros : List F
  stackIndices : List (Option ℕ)

structure ViewerProfile (F : Type) where
  startTimeUnixMillis : Option F
  intervalMillis : Option F
  functions : List String
  stackTable : List (List ℕ)
  threads : List (ViewerThread F)
  sampleCount : ℕ
  truncated : Bool

section
variable {F : Type}

/-! ## Columns -/

abbrev Fields (F : Type) := List (String × Value F)

/-- `context`. -/
def orElse {α : Type} (value : Option α) (text : String) : Except String α :=
  match value with
  | some a => .ok a
  | none => .error text

def field (object : Fields F) (name : String) : Except String (Value F) :=
  orElse (object.lookup name) s!"missing {name}"

def objectMap (object : Fields F) (name : String) : Except String (Fields F) := do
  orElse (← field object name).asObject s!"{name} is not an object"

def stringArray (value : Value F) : Except String (List String) := do
  (← orElse value.asArray "stringArray is not an array").mapM fun value =>
    orElse value.asStr "invalid stringArray value"

def integerArray (value : Value F) : Except String (List ℤ) := do
  (← orElse value.asArray "column is not an array").mapM fun value =>
    orElse value.asI64 "column contains a non-integer"

def optionalIntegerArray (value : Value F) : Except String (List (Option ℤ)) := do
  (← orElse value.asArray "column is not an array").mapM fun value =>
    if value.isNull then .ok none else (orElse value.asI64 "column contains a non-integer").map some

def floatArray [F64 F] (value : Value F) : Except String (List F) := do
  (← orElse value.asArray "column is not an array").mapM fun value =>
    orElse value.asF64 "column contains a non-number"

def displayId [F64 F] : Option (Value F) → String
  | some (.string s) => s
  | some (.number n) => n.display
  | _ => "?"

/-! ## Stacks -/

structure SharedTables where
  strings : List String
  prefixOffsets : List ℤ
  stackFrames : List ℤ
  frameFuncs : List ℤ
  funcNames : List ℤ
  deriving DecidableEq, Repr

def readTables (root : Fields F) : Except String SharedTables := do
  let shared ← objectMap root "shared"
  let strings ← stringArray (← field shared "stringArray")
  let stackTable ← objectMap shared "stackTable"
  let frameTable ← objectMap shared "frameTable"
  let funcTable ← objectMap shared "funcTable"
  let prefixOffsets ← integerArray (← field stackTable "prefixOffset")
  let stackFrames ← integerArray (← field stackTable "frame")
  let frameFuncs ← integerArray (← field frameTable "func")
  let funcNames ← integerArray (← field funcTable "name")
  if prefixOffsets.length > maxViewerStacks then
    .error "profile contains too many stacks for the viewer"
  else if funcNames.length > maxViewerFunctions then
    .error "profile contains too many functions for the viewer"
  else
    return { strings, prefixOffsets, stackFrames, frameFuncs, funcNames }

namespace SharedTables

section
variable (self : SharedTables)

def functions : List String :=
  self.funcNames.map fun name => ((toUsize name).bind (self.strings[·]?)).getD "<unknown>"

def stackCount : ℕ := min self.prefixOffsets.length self.stackFrames.length

def functionOf (frameIndex : ℕ) : Option ℕ := (self.frameFuncs[frameIndex]?).bind toUsize

/-- Where an offset leads from `index`. -/
def parentOf (index : ℕ) (offset : ℤ) : Option ℕ :=
  if offset > 0 then (toUsize offset).bind fun offset => if offset ≤ index then some (index - offset) else none
  else none

/-- The walk up from a stack, in at most `rounds` rounds of its loop. It is `none` when that is not enough, or when
an index is out of range. -/
def walk : (rounds : ℕ) → (current : Option ℕ) → (reversed seen : List ℕ) → Option (List ℕ)
  | _, none, reversed, _ => some reversed
  | 0, some _, _, _ => none
  | rounds + 1, some index, reversed, seen =>
    if reversed.length = maxStackDepth ∨ index ∈ seen then some reversed
    else
      match (self.stackFrames[index]?).bind toUsize with
      | none => some reversed
      | some frameIndex =>
        -- the one index that is not checked
        (self.prefixOffsets[index]?).bind fun offset =>
          walk rounds (parentOf index offset) (reversed ++ (self.functionOf frameIndex).toList) (index :: seen)

def decodeStacks : Option (List (List ℕ)) :=
  (List.range self.stackCount).mapM fun stackIndex =>
    (self.walk self.prefixOffsets.length (some stackIndex) [] []).map List.reverse

end

end SharedTables

/-! ## Threads -/

structure ThreadColumns (F : Type) where
  pid : String
  tid : String
  name : String
  stack : List (Option ℤ)
  weight : List ℤ
  timeDeltas : List F
  cpuDeltas : List F

variable [F64 F]

def readThread (thread : Value F) : Except String (ThreadColumns F) := do
  let thread ← orElse thread.asObject "thread is not an object"
  let samples ← objectMap thread "samples"
  let stack ← optionalIntegerArray (← field samples "stack")
  let weight ← integerArray (← field samples "weight")
  let timeDeltas ← floatArray (← field samples "timeDeltas")
  let cpuDeltas ← (samples.lookup "threadCPUDelta").elim (.ok []) floatArray
  return {
    pid := displayId (thread.lookup "pid")
    tid := displayId (thread.lookup "tid")
    name := ((thread.lookup "name").bind Value.asStr).getD "Unnamed thread"
    stack, weight, timeDeltas, cpuDeltas }

def ThreadColumns.available (self : ThreadColumns F) : ℕ :=
  min (min self.stack.length self.weight.length) self.timeDeltas.length

/-- The times after each delta, `elapsed` before the first. -/
def timesFrom : (elapsed : F) → (deltas : List F) → Except String (List F)
  | _, [] => .ok []
  | elapsed, delta :: deltas =>
    if F64.isNegative delta then .error "profile contains a negative sample time delta"
    else if !F64.isFinite (F64.add elapsed delta) then .error "profile sample time exceeds the supported range"
    else do return F64.add elapsed delta :: (← timesFrom (F64.add elapsed delta) deltas)

/-- The first `take` samples of a thread. -/
def ThreadColumns.decode (self : ThreadColumns F) (take : ℕ) : Except String (ViewerThread F) := do
  let timesMillis ← timesFrom F64.zero (self.timeDeltas.take take)
  return {
    pid := self.pid
    tid := self.tid
    name := self.name
    timesMillis
    weights := self.weight.take take
    cpuDeltaMicros := self.cpuDeltas.take take
    stackIndices := (self.stack.take take).map (·.bind toUsize) }

structure DecodedThreads (F : Type) where
  threads : List (ViewerThread F) := []
  sampleCount : ℕ := 0
  truncated : Bool := false

def DecodedThreads.push (self : DecodedThreads F) (columns : ThreadColumns F) : Except String (DecodedThreads F) := do
  let take := min columns.available (maxViewerSamples - self.sampleCount)
  let thread ← columns.decode take
  return {
    threads := self.threads ++ [thread]
    sampleCount := self.sampleCount + take
    truncated := self.truncated || take < columns.available }

def decodeThreads (total : ℕ) : DecodedThreads F → List (Value F) → Except String (DecodedThreads F)
  | decoded, [] => .ok decoded
  | decoded, thread :: rest => do
    let decoded ← decoded.push (← readThread thread)
    if decoded.sampleCount = maxViewerSamples then
      return { decoded with truncated := decoded.truncated || decoded.threads.length < total }
    else decodeThreads total decoded rest

/-! ## The profile -/

/-- The profile threads, when there are not too many. -/
def readThreads (root : Fields F) : Except String (List (Value F)) := do
  let threads ← orElse (← field root "threads").asArray "threads is not an array"
  if threads.length > maxViewerThreads then .error "profile contains too many threads for the viewer" else
    return threads

/-- `none` when an index is out of range. -/
def decodeRoot (root : Value F) : Option (Except String (ViewerProfile F)) :=
  match orElse root.asObject "profile root is not an object" with
  | .error text => some (.error text)
  | .ok root =>
    match readTables root with
    | .error text => some (.error text)
    | .ok tables =>
      tables.decodeStacks.map fun stackTable => do
        let threads ← readThreads root
        let decoded ← decodeThreads threads.length {} threads
        let metadata := (root.lookup "meta").bind Value.asObject
        return {
          startTimeUnixMillis := (metadata.bind (·.lookup "startTime")).bind Value.asF64
          intervalMillis := (metadata.bind (·.lookup "interval")).bind Value.asF64
          functions := tables.functions
          stackTable
          threads := decoded.threads
          sampleCount := decoded.sampleCount
          truncated := decoded.truncated }

end

end RustProfile
