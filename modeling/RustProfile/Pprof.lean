import RustProfile.Ints
import RustProfile.Symbol
import RustProfile.Lib.Interning

/-!
# Writing pprof profiles

`ProfileBuilder` interns strings, mappings, functions and locations while it
adds samples. Each writer names its sample types, its period and its labels, and
adds the entries of a map in the map's own order.
-/

namespace RustProfile

open Interning

/-! ## The profile -/

structure ValueType where
  type : ℕ
  unit : ℕ
  deriving DecidableEq, Repr

structure Label where
  key : ℕ
  str : ℕ
  num : ℤ
  numUnit : ℕ
  deriving DecidableEq, Repr

structure Sample where
  locationId : List ℕ
  value : List ℤ
  label : List Label
  deriving DecidableEq, Repr

structure Mapping where
  id : ℕ
  memoryStart : UInt64
  memoryLimit : UInt64
  fileOffset : UInt64
  filename : ℕ
  buildId : ℕ
  hasFunctions : Bool
  hasFilenames : Bool
  hasLineNumbers : Bool
  hasInlineFrames : Bool
  deriving DecidableEq, Repr

structure Line where
  functionId : ℕ
  line : ℤ
  column : ℤ
  deriving DecidableEq, Repr

structure Location where
  id : ℕ
  mappingId : ℕ
  address : UInt64
  line : List Line
  isFolded : Bool
  deriving DecidableEq, Repr

structure Function where
  id : ℕ
  name : ℕ
  systemName : ℕ
  filename : ℕ
  startLine : ℤ
  deriving DecidableEq, Repr

structure Profile where
  sampleType : List ValueType := []
  sample : List Sample := []
  mapping : List Mapping := []
  location : List Location := []
  function : List Function := []
  stringTable : List String := [""]
  timeNanos : ℤ
  durationNanos : ℤ
  periodType : Option ValueType := none
  period : ℤ := 0
  comment : List ℕ := []
  defaultSampleType : ℕ := 0
  deriving DecidableEq, Repr

structure ExportStats where
  symbolizedLocations : ℕ := 0
  totalLocations : ℕ := 0
  deriving DecidableEq, Repr

/-! ## The builder -/

abbrev FunctionKey := String × String × Option String

def SymbolizedLine.functionKey (line : SymbolizedLine) : FunctionKey := (line.function, line.systemName, line.filename)

structure ProfileBuilder where
  profile : Profile
  symbolizer : Option Symbolizer
  strings : Table String ℕ
  mappings : Table MappingInfo.Key ℕ := ∅
  functions : Table FunctionKey ℕ := ∅
  locations : Table UInt64 ℕ := ∅
  stats : ExportStats := {}

namespace ProfileBuilder

/-- `new` with a symbolizer and `new_raw` without. -/
def new (symbolizer : Option Symbolizer) (timeNanos durationNanos : ℤ) : ProfileBuilder where
  profile := { timeNanos := timeNanos, durationNanos := durationNanos }
  symbolizer := symbolizer
  strings := (∅ : Table String ℕ).insert "" 0

def intern (self : ProfileBuilder) (value : String) : ℕ × ProfileBuilder :=
  match self.strings.lookup value with
  | some index => (index, self)
  | none =>
    let index := self.profile.stringTable.length
    (index, { self with
      profile := { self.profile with stringTable := self.profile.stringTable ++ [value] }
      strings := self.strings.insert value index })

def valueType (self : ProfileBuilder) (kind : String × String) : ValueType × ProfileBuilder :=
  let (type, self) := self.intern kind.1
  let (unit, self) := self.intern kind.2
  ({ type := type, unit := unit }, self)

/-- A label with a string value. -/
def stringLabel (self : ProfileBuilder) (label : String × String) : Label × ProfileBuilder :=
  let (key, self) := self.intern label.1
  let (str, self) := self.intern label.2
  ({ key := key, str := str, num := 0, numUnit := 0 }, self)

/-- A label with a number. -/
def numLabel (self : ProfileBuilder) (label : String × ℤ) : Label × ProfileBuilder :=
  let (key, self) := self.intern label.1
  ({ key := key, str := 0, num := label.2, numUnit := 0 }, self)

def sampleLabels (self : ProfileBuilder) (labels : List (String × String)) : List Label × ProfileBuilder :=
  mapState stringLabel self labels

def threadLabels (self : ProfileBuilder) (pid tid : UInt32) (name : Option String) : List Label × ProfileBuilder :=
  let (numbers, self) := mapState numLabel self [("process.pid", (pid.toNat : ℤ)), ("thread.id", (tid.toNat : ℤ))]
  let (names, self) := mapState stringLabel self (name.toList.map fun name => ("thread.name", name))
  (numbers ++ names, self)

def function (self : ProfileBuilder) (line : SymbolizedLine) : ℕ × ProfileBuilder :=
  match self.functions.lookup line.functionKey with
  | some id => (id, self)
  | none =>
    let id := self.profile.function.length + 1
    let (name, self) := self.intern line.function
    let (systemName, self) := self.intern line.systemName
    let (filename, self) := self.intern (line.filename.getD "")
    let entry : Function := { id := id, name := name, systemName := systemName, filename := filename, startLine := 0 }
    (id, { self with
      profile := { self.profile with function := self.profile.function ++ [entry] }
      functions := self.functions.insert line.functionKey id })

def hasFilenames (resolved : ResolvedLocation) : Bool := resolved.lines.any fun line => line.filename.isSome

def hasLineNumbers (resolved : ResolvedLocation) : Bool := resolved.lines.any fun line => line.line ≠ 0

def mergeFlags (resolved : ResolvedLocation) (mapping : Mapping) : Mapping :=
  { mapping with
    hasFunctions := mapping.hasFunctions || !resolved.lines.isEmpty
    hasFilenames := mapping.hasFilenames || hasFilenames resolved
    hasLineNumbers := mapping.hasLineNumbers || hasLineNumbers resolved
    hasInlineFrames := mapping.hasInlineFrames || decide (resolved.lines.length > 1) }

def mapping (self : ProfileBuilder) (info : MappingInfo) (resolved : ResolvedLocation) : ℕ × ProfileBuilder :=
  match self.mappings.lookup info.key with
  | some id =>
    (id, { self with
      -- only the flags of a known mapping change; the path stays as it was spelled first
      profile := { self.profile with mapping := self.profile.mapping.modify (id - 1) (mergeFlags resolved) } })
  | none =>
    let id := self.profile.mapping.length + 1
    let (filename, self) := self.intern info.filename.toStringLossy
    let (buildId, self) := self.intern (info.buildId.getD "")
    let entry : Mapping :=
      { id := id
        memoryStart := info.start
        memoryLimit := info.limit
        fileOffset := info.offset
        filename := filename
        buildId := buildId
        hasFunctions := !resolved.lines.isEmpty
        hasFilenames := hasFilenames resolved
        hasLineNumbers := hasLineNumbers resolved
        hasInlineFrames := decide (resolved.lines.length > 1) }
    (id, { self with
      profile := { self.profile with mapping := self.profile.mapping ++ [entry] }
      mappings := self.mappings.insert info.key id })

def line (self : ProfileBuilder) (line : SymbolizedLine) : Line × ProfileBuilder :=
  let (functionId, self) := self.function line
  ({ functionId := functionId, line := line.line, column := 0 }, self)

def pushLocation (self : ProfileBuilder) (address : UInt64) (mappingId : ℕ) (line : List Line) : ℕ × ProfileBuilder :=
  let id := self.profile.location.length + 1
  let entry : Location := { id := id, mappingId := mappingId, address := address, line := line, isFolded := false }
  (id, { self with
    profile := { self.profile with location := self.profile.location ++ [entry] }
    locations := self.locations.insert address id })

def countLocation (self : ProfileBuilder) : ProfileBuilder :=
  { self with stats := { self.stats with totalLocations := self.stats.totalLocations + 1 } }

def countSymbolized (self : ProfileBuilder) (resolved : ResolvedLocation) : ProfileBuilder :=
  if resolved.isSymbolized then
    { self with stats := { self.stats with symbolizedLocations := self.stats.symbolizedLocations + 1 } }
  else self

def optionMapping (self : ProfileBuilder) (resolved : ResolvedLocation) : ℕ × ProfileBuilder :=
  match resolved.mapping with
  | some info => self.mapping info resolved
  | none => (0, self)

def location (self : ProfileBuilder) (address : UInt64) : ℕ × ProfileBuilder :=
  match self.locations.lookup address with
  | some id => (id, self)
  | none =>
    let self := self.countLocation
    match self.symbolizer with
    | none => self.pushLocation address 0 []
    | some symbolizer =>
      let resolved := symbolizer.resolve address
      let self := self.countSymbolized resolved
      let (mappingId, self) := self.optionMapping resolved
      let (lines, self) := mapState line self resolved.lines
      self.pushLocation address mappingId lines

def addSample (self : ProfileBuilder) (stack : Stack) (values : List ℤ) (labels : List Label) : ProfileBuilder :=
  let (locationId, self) := mapState location self (stack.frames.map Frame.address)
  let entry : Sample := { locationId := locationId, value := values, label := labels }
  { self with profile := { self.profile with sample := self.profile.sample ++ [entry] } }

end ProfileBuilder

/-! ## The writers -/

/-- What a writer says about its profile besides the samples. -/
structure ProfileHeader where
  sampleTypes : List (String × String)
  periodType : Option (String × String)
  period : ℤ
  defaultSampleType : String
  comments : List String

/-- The samples: labelled with the target and a thread each, or with the target only. -/
inductive ProfileSamples where
  | attributed (labels : List (String × String)) (samples : List (AttributedStack × List ℤ))
  | labelled (labels : List (String × String)) (samples : List (Stack × List ℤ))

namespace ProfileBuilder

def start (self : ProfileBuilder) (header : ProfileHeader) : ProfileBuilder :=
  let (sampleTypes, self) := mapState valueType self header.sampleTypes
  let (periodTypes, self) := mapState valueType self header.periodType.toList
  let (defaultSampleType, self) := self.intern header.defaultSampleType
  let (comments, self) := mapState intern self header.comments
  { self with
    profile := { self.profile with
      sampleType := sampleTypes
      periodType := periodTypes.head?
      period := header.period
      defaultSampleType := defaultSampleType
      comment := comments } }

def addAttributed (labels : List (String × String)) (self : ProfileBuilder) (sample : AttributedStack × List ℤ) :
    ProfileBuilder :=
  let (sampleLabels, self) := self.sampleLabels labels
  let (threadLabels, self) := self.threadLabels sample.1.pid sample.1.tid sample.1.threadName
  self.addSample sample.1.stack sample.2 (sampleLabels ++ threadLabels)

def addSamples (self : ProfileBuilder) : ProfileSamples → ProfileBuilder
  | .attributed labels samples => samples.foldl (addAttributed labels) self
  | .labelled labels samples =>
    let (sampleLabels, self) := self.sampleLabels labels
    samples.foldl (fun self sample => self.addSample sample.1 sample.2 sampleLabels) self

end ProfileBuilder

/-- Everything a writer gives the builder. -/
structure ProfileRequest where
  symbolizer : Option Symbolizer
  timeNanos : ℤ
  durationNanos : ℤ
  header : ProfileHeader
  samples : ProfileSamples

def ProfileRequest.builder (self : ProfileRequest) : ProfileBuilder :=
  ((ProfileBuilder.new self.symbolizer self.timeNanos self.durationNanos).start self.header).addSamples self.samples

def ProfileRequest.build (self : ProfileRequest) : ExportStats × Profile := (self.builder.stats, self.builder.profile)

def cpuHeader (period : ℤ) : ProfileHeader where
  sampleTypes := [("samples", "count"), ("cpu", "nanoseconds")]
  periodType := some ("cpu", "nanoseconds")
  period := period
  defaultSampleType := "cpu"
  comments := []

def offCpuHeader : ProfileHeader where
  sampleTypes := [("off_cpu_events", "count"), ("off_cpu", "nanoseconds")]
  periodType := none
  period := 0
  defaultSampleType := "off_cpu"
  comments := []

def timelineHeader (period : ℤ) : ProfileHeader where
  sampleTypes := [("cpu", "nanoseconds")]
  periodType := some ("cpu", "nanoseconds")
  period := period
  defaultSampleType := "cpu"
  comments := []

def heapHeader (allocationInterval : ℕ) : ProfileHeader where
  sampleTypes := [("alloc_objects", "count"), ("alloc_space", "bytes"), ("inuse_objects", "count"),
    ("inuse_space", "bytes")]
  periodType := some ("space", "bytes")
  period := saturatingI64 allocationInterval
  defaultSampleType := "inuse_space"
  comments := ["inuse values include only sampled allocations observed since rustprofile attached"]

/-- The nanoseconds of one period. -/
def periodNanos (frequency : ℕ) : ℤ := (1000000000 / max frequency 1 : ℕ)

def CpuValues.toList (values : CpuValues) : List ℤ := [values.samples, values.nanoseconds]
def OffCpuValues.toList (values : OffCpuValues) : List ℤ := [values.events, values.nanoseconds]
def HeapValues.toList (values : HeapValues) : List ℤ :=
  [values.allocObjects, values.allocSpace, values.inuseObjects, values.inuseSpace]

/-- The entries of a sample map in the order they are visited. -/
def visited {K V : Type} (iter : IterOrder) (values : V → List ℤ) (samples : Table K V) : List (K × List ℤ) :=
  (iter.order samples.entries).map fun e => (e.1, values e.2)

section
variable (iter : IterOrder)

def cpuRequest (samples : Table AttributedStack CpuValues) (symbolizer : Symbolizer) (timeNanos durationNanos : ℤ)
    (frequency : ℕ) (labels : List (String × String)) : ProfileRequest where
  symbolizer := some symbolizer
  timeNanos := timeNanos
  durationNanos := durationNanos
  header := cpuHeader (periodNanos frequency)
  samples := .attributed labels (visited iter CpuValues.toList samples)

def writeCpuProfile (samples : Table AttributedStack CpuValues) (symbolizer : Symbolizer) (timeNanos durationNanos : ℤ)
    (frequency : ℕ) (labels : List (String × String)) : ExportStats × Profile :=
  (cpuRequest iter samples symbolizer timeNanos durationNanos frequency labels).build

/-- The raw writer takes no labels. -/
def rawCpuRequest (samples : Table AttributedStack CpuValues) (timeNanos durationNanos period : ℤ) :
    ProfileRequest where
  symbolizer := none
  timeNanos := timeNanos
  durationNanos := durationNanos
  header := cpuHeader (max period 1)
  samples := .attributed [] (visited iter CpuValues.toList samples)

def writeRawCpuProfile (samples : Table AttributedStack CpuValues) (timeNanos durationNanos period : ℤ) : Profile :=
  (rawCpuRequest iter samples timeNanos durationNanos period).build.2

def offCpuRequest (samples : Table AttributedStack OffCpuValues) (symbolizer : Symbolizer)
    (timeNanos durationNanos : ℤ) (labels : List (String × String)) : ProfileRequest where
  symbolizer := some symbolizer
  timeNanos := timeNanos
  durationNanos := durationNanos
  header := offCpuHeader
  samples := .attributed labels (visited iter OffCpuValues.toList samples)

def writeOffCpuProfile (samples : Table AttributedStack OffCpuValues) (symbolizer : Symbolizer)
    (timeNanos durationNanos : ℤ) (labels : List (String × String)) : ExportStats × Profile :=
  (offCpuRequest iter samples symbolizer timeNanos durationNanos labels).build

def rawOffCpuRequest (samples : Table AttributedStack OffCpuValues) (timeNanos durationNanos : ℤ) :
    ProfileRequest where
  symbolizer := none
  timeNanos := timeNanos
  durationNanos := durationNanos
  header := offCpuHeader
  samples := .attributed [] (visited iter OffCpuValues.toList samples)

def writeRawOffCpuProfile (samples : Table AttributedStack OffCpuValues) (timeNanos durationNanos : ℤ) : Profile :=
  (rawOffCpuRequest iter samples timeNanos durationNanos).build.2

def heapRequest (samples : Table Stack HeapValues) (symbolizer : Symbolizer) (timeNanos durationNanos : ℤ)
    (allocationInterval : ℕ) (labels : List (String × String)) : ProfileRequest where
  symbolizer := some symbolizer
  timeNanos := timeNanos
  durationNanos := durationNanos
  header := heapHeader allocationInterval
  samples := .labelled labels (visited iter HeapValues.toList samples)

def writeHeapProfile (samples : Table Stack HeapValues) (symbolizer : Symbolizer) (timeNanos durationNanos : ℤ)
    (allocationInterval : ℕ) (labels : List (String × String)) : ExportStats × Profile :=
  (heapRequest iter samples symbolizer timeNanos durationNanos allocationInterval labels).build

end

/-- The timeline samples that have a timestamp, as they are added. -/
def encodedTimeline : List TimedStackSample → List (Option ℕ) → List ((AttributedStack × List ℤ) × ℕ)
  | sample :: samples, some timestamp :: timestamps =>
    let key : AttributedStack :=
      { stack := sample.stack, pid := sample.pid, tid := sample.tid, threadName := sample.threadName }
    ((key, [saturatingI64 sample.cpuDelta]), timestamp) :: encodedTimeline samples timestamps
  | _ :: samples, none :: timestamps => encodedTimeline samples timestamps
  | [], _ => []
  | _ :: _, [] => []

def timelineRequest (samples : List TimedStackSample) (timestampsUnixNano : List (Option ℕ))
    (symbolizer : Option Symbolizer) (timeNanos durationNanos : ℤ) (frequency : ℕ) (labels : List (String × String)) :
    ProfileRequest where
  symbolizer := symbolizer
  timeNanos := timeNanos
  durationNanos := durationNanos
  header := timelineHeader (periodNanos frequency)
  samples := .attributed labels ((encodedTimeline samples timestampsUnixNano).map Prod.fst)

def buildCpuTimelineProfile (samples : List TimedStackSample) (timestampsUnixNano : List (Option ℕ))
    (symbolizer : Option Symbolizer) (timeNanos durationNanos : ℤ) (frequency : ℕ) (labels : List (String × String)) :
    Except String (ExportStats × Profile × List ℕ) :=
  if samples.length ≠ timestampsUnixNano.length then
    .error "CPU timeline samples and timestamps have different lengths"
  else
    let request := timelineRequest samples timestampsUnixNano symbolizer timeNanos durationNanos frequency labels
    .ok (request.build.1, request.build.2, (encodedTimeline samples timestampsUnixNano).map Prod.snd)

end RustProfile
