import RustProfile.Pprof

/-!
# Encoding profiles for OTLP

All profiles of a window go into one request and share its dictionary, whose
tables are interned by what the entries hold. The first entry of each table
stands for no entry; of the tables only the strings index theirs. An index is
an `i32` in the code, so a table has fewer than 2 ^ 31 entries.
-/

namespace RustProfile

namespace Otlp

open Interning

/-! ## The request -/

inductive AnyValue where
  | string (value : String)
  | bool (value : Bool)
  | int (value : ℤ)
  | intArray (values : List ℤ)
  deriving DecidableEq, Repr

structure KeyValue where
  key : String
  value : AnyValue
  deriving DecidableEq, Repr

structure KeyValueAndUnit where
  keyStrindex : ℕ := 0
  value : Option AnyValue := none
  unitStrindex : ℕ := 0
  deriving DecidableEq, Repr

structure ValueType where
  typeStrindex : ℕ
  unitStrindex : ℕ
  deriving DecidableEq, Repr

structure Mapping where
  memoryStart : UInt64 := 0
  memoryLimit : UInt64 := 0
  fileOffset : UInt64 := 0
  filenameStrindex : ℕ := 0
  attributeIndices : List ℕ := []
  deriving DecidableEq, Repr

structure Line where
  functionIndex : ℕ
  line : ℤ
  column : ℤ
  deriving DecidableEq, Repr

structure Location where
  mappingIndex : ℕ := 0
  address : UInt64 := 0
  lines : List Line := []
  attributeIndices : List ℕ := []
  deriving DecidableEq, Repr

structure Function where
  nameStrindex : ℕ := 0
  systemNameStrindex : ℕ := 0
  filenameStrindex : ℕ := 0
  startLine : ℤ := 0
  deriving DecidableEq, Repr

structure Link where
  traceId : List UInt8 := []
  spanId : List UInt8 := []
  deriving DecidableEq, Repr

structure Stack where
  locationIndices : List ℕ := []
  deriving DecidableEq, Repr

structure Sample where
  stackIndex : ℕ
  attributeIndices : List ℕ
  linkIndex : ℕ
  values : List ℤ
  timestampsUnixNano : List ℕ
  deriving DecidableEq, Repr

structure Profile where
  sampleType : Option ValueType
  samples : List Sample
  timeUnixNano : ℕ
  durationNano : ℕ
  periodType : Option ValueType
  period : ℤ
  profileId : List UInt8
  deriving DecidableEq, Repr

structure ScopeProfiles where
  attributes : List KeyValue
  profiles : List Profile
  deriving DecidableEq, Repr

structure ProfilesDictionary where
  mappingTable : List Mapping
  locationTable : List Location
  functionTable : List Function
  linkTable : List Link
  stringTable : List String
  attributeTable : List KeyValueAndUnit
  stackTable : List Stack
  deriving DecidableEq, Repr

/-- The export request, less its resource. -/
structure ExportProfilesServiceRequest where
  scopeProfiles : List ScopeProfiles
  dictionary : ProfilesDictionary
  deriving DecidableEq, Repr

structure ExportPayload where
  request : ExportProfilesServiceRequest
  profiles : ℕ
  deriving DecidableEq, Repr

/-! ## The dictionary -/

def pprofString (profile : RustProfile.Profile) (index : ℕ) : String := profile.stringTable[index]?.getD ""

def collect {ε : Type} (id : ε → ℕ) (entries : List ε) : Table ℕ ε :=
  entries.foldl (fun map entry => map.insert (id entry) entry) ∅

structure SourceLookup where
  locations : Table ℕ RustProfile.Location
  mappings : Table ℕ RustProfile.Mapping
  functions : Table ℕ RustProfile.Function

def SourceLookup.new (source : RustProfile.Profile) : SourceLookup where
  locations := collect RustProfile.Location.id source.location
  mappings := collect RustProfile.Mapping.id source.mapping
  functions := collect RustProfile.Function.id source.function

abbrev MappingKey := UInt64 × UInt64 × UInt64 × String × String
abbrev LocationKey := UInt64 × ℕ × List (ℕ × ℤ × ℤ)
abbrev FunctionKey := String × String × String × ℤ

/-- `htlhash` is what hashing the file of an address range gives the n-th time. -/
structure DictionaryBuilder where
  processPid : ℤ
  htlhash : ℕ → ℤ → UInt64 → UInt64 → Option String
  hashed : ℕ := 0
  strings : List String := [""]
  stringIndex : Table String ℕ := (∅ : Table String ℕ).insert "" 0
  mappings : List Mapping := [{}]
  mappingIndex : Table MappingKey ℕ := ∅
  locations : List Location := [{}]
  locationIndex : Table LocationKey ℕ := ∅
  functions : List Function := [{}]
  functionIndex : Table FunctionKey ℕ := ∅
  attributes : List KeyValueAndUnit := [{}]
  attributeIndex : Table (String × String) ℕ := ∅
  stackEntries : List Stack := [{}]
  stackIndex : Table (List ℕ) ℕ := ∅

namespace DictionaryBuilder

def internString (self : DictionaryBuilder) (value : String) : ℕ × DictionaryBuilder :=
  match self.stringIndex.lookup value with
  | some index => (index, self)
  | none =>
    let index := self.strings.length
    (index, { self with
      strings := self.strings ++ [value]
      stringIndex := self.stringIndex.insert value index })

def internUnit (self : DictionaryBuilder) : Option String → ℕ × DictionaryBuilder
  | some unit => self.internString unit
  | none => (0, self)

/-- What `intern_attribute_string`, `_bool` and `_i64` have in common; only the last has a unit. -/
def internAttribute (self : DictionaryBuilder) (key : String) (cacheKey : String) (value : AnyValue)
    (unit : Option String) : ℕ × DictionaryBuilder :=
  match self.attributeIndex.lookup (key, cacheKey) with
  | some index => (index, self)
  | none =>
    let (keyStrindex, self) := self.internString key
    let (unitStrindex, self) := self.internUnit unit
    let entry : KeyValueAndUnit := { keyStrindex := keyStrindex, value := some value, unitStrindex := unitStrindex }
    let index := self.attributes.length
    (index, { self with
      attributes := self.attributes ++ [entry]
      attributeIndex := self.attributeIndex.insert (key, cacheKey) index })

def internAttributeString (self : DictionaryBuilder) (key value : String) : ℕ × DictionaryBuilder :=
  self.internAttribute key ("s:" ++ value) (.string value) none

def internAttributeBool (self : DictionaryBuilder) (key : String) (value : Bool) : ℕ × DictionaryBuilder :=
  self.internAttribute key ("b:" ++ toString value) (.bool value) none

def internAttributeI64 (self : DictionaryBuilder) (key : String) (value : ℤ) (unit : String) : ℕ × DictionaryBuilder :=
  self.internAttribute key ("i:" ++ toString value ++ ":" ++ unit) (.int value) (some unit)

def internPprofLabel (source : RustProfile.Profile) (self : DictionaryBuilder) (label : RustProfile.Label) :
    Option ℕ × DictionaryBuilder :=
  let key := pprofString source label.key
  if key = "" then (none, self)
  else if label.str ≠ 0 then
    let (index, self) := self.internAttributeString key (pprofString source label.str)
    (some index, self)
  else
    let (index, self) := self.internAttributeI64 key label.num (pprofString source label.numUnit)
    (some index, self)

def mappingKey (source : RustProfile.Profile) (mapping : RustProfile.Mapping) : MappingKey :=
  (mapping.memoryStart, mapping.memoryLimit, mapping.fileOffset, pprofString source mapping.filename,
    pprofString source mapping.buildId)

/-- A string attribute for the value, if there is one. -/
def internOptional (self : DictionaryBuilder) (key : String) : Option String → List ℕ × DictionaryBuilder
  | some value =>
    let (index, self) := self.internAttributeString key value
    ([index], self)
  | none => ([], self)

def hashMapping (self : DictionaryBuilder) (start limit : UInt64) : Option String × DictionaryBuilder :=
  (self.htlhash self.hashed self.processPid start limit, { self with hashed := self.hashed + 1 })

def mappingFlags (mapping : RustProfile.Mapping) : List (String × Bool) :=
  [("pprof.mapping.has_functions", mapping.hasFunctions), ("pprof.mapping.has_filenames", mapping.hasFilenames),
    ("pprof.mapping.has_line_numbers", mapping.hasLineNumbers),
    ("pprof.mapping.has_inline_frames", mapping.hasInlineFrames)]

def internMapping (source : RustProfile.Profile) (self : DictionaryBuilder) (mapping : RustProfile.Mapping) :
    ℕ × DictionaryBuilder :=
  match self.mappingIndex.lookup (mappingKey source mapping) with
  -- a mapping that is known keeps its flags, whatever this one says
  | some index => (index, self)
  | none =>
    let filename := pprofString source mapping.filename
    let buildId := pprofString source mapping.buildId
    let (gnu, self) := self.internOptional "process.executable.build_id.gnu"
      (if buildId = "" then none else some buildId)
    let (hash, self) := self.hashMapping mapping.memoryStart mapping.memoryLimit
    let (htl, self) := self.internOptional "process.executable.build_id.htlhash" hash
    let (flags, self) := mapState (fun self (flag : String × Bool) => self.internAttributeBool flag.1 flag.2) self
      (mappingFlags mapping)
    let (filenameStrindex, self) := self.internString filename
    let entry : Mapping :=
      { memoryStart := mapping.memoryStart
        memoryLimit := mapping.memoryLimit
        fileOffset := mapping.fileOffset
        filenameStrindex := filenameStrindex
        attributeIndices := gnu ++ htl ++ flags }
    let index := self.mappings.length
    (index, { self with
      mappings := self.mappings ++ [entry]
      mappingIndex := self.mappingIndex.insert (mappingKey source mapping) index })

def functionKey (source : RustProfile.Profile) (function : RustProfile.Function) : FunctionKey :=
  (pprofString source function.name, pprofString source function.systemName, pprofString source function.filename,
    function.startLine)

def internFunction (source : RustProfile.Profile) (self : DictionaryBuilder) (function : RustProfile.Function) :
    ℕ × DictionaryBuilder :=
  let key := functionKey source function
  match self.functionIndex.lookup key with
  | some index => (index, self)
  | none =>
    let (nameStrindex, self) := self.internString key.1
    let (systemNameStrindex, self) := self.internString key.2.1
    let (filenameStrindex, self) := self.internString key.2.2.1
    let entry : Function :=
      { nameStrindex := nameStrindex
        systemNameStrindex := systemNameStrindex
        filenameStrindex := filenameStrindex
        startLine := key.2.2.2 }
    let index := self.functions.length
    (index, { self with
      functions := self.functions ++ [entry]
      functionIndex := self.functionIndex.insert key index })

def internLine (source : RustProfile.Profile) (lookup : SourceLookup) (self : DictionaryBuilder)
    (line : RustProfile.Line) : Line × DictionaryBuilder :=
  let (functionIndex, self) := match lookup.functions.lookup line.functionId with
    | some function => self.internFunction source function
    | none => (0, self)
  ({ functionIndex := functionIndex, line := line.line, column := line.column }, self)

def locationMapping (source : RustProfile.Profile) (lookup : SourceLookup) (self : DictionaryBuilder)
    (mappingId : ℕ) : ℕ × DictionaryBuilder :=
  match lookup.mappings.lookup mappingId with
  | some mapping => self.internMapping source mapping
  | none => (0, self)

def locationKey (address : UInt64) (mappingIndex : ℕ) (lines : List Line) : LocationKey :=
  (address, mappingIndex, lines.map fun line => (line.functionIndex, line.line, line.column))

def foldedAttributes (self : DictionaryBuilder) (isFolded : Bool) : List ℕ × DictionaryBuilder :=
  if isFolded then
    let (index, self) := self.internAttributeBool "pprof.location.is_folded" true
    ([index], self)
  else ([], self)

def internLocation (source : RustProfile.Profile) (lookup : SourceLookup) (self : DictionaryBuilder)
    (location : RustProfile.Location) : ℕ × DictionaryBuilder :=
  let (mappingIndex, self) := self.locationMapping source lookup location.mappingId
  let (lines, self) := mapState (internLine source lookup) self location.line
  let key := locationKey location.address mappingIndex lines
  match self.locationIndex.lookup key with
  | some index => (index, self)
  | none =>
    let (attributeIndices, self) := self.foldedAttributes location.isFolded
    let entry : Location :=
      { mappingIndex := mappingIndex, address := location.address, lines := lines,
        attributeIndices := attributeIndices }
    let index := self.locations.length
    (index, { self with
      locations := self.locations ++ [entry]
      locationIndex := self.locationIndex.insert key index })

def internStack (self : DictionaryBuilder) (locations : List ℕ) : ℕ × DictionaryBuilder :=
  match self.stackIndex.lookup locations with
  | some index => (index, self)
  | none =>
    let index := self.stackEntries.length
    (index, { self with
      stackEntries := self.stackEntries ++ [{ locationIndices := locations }]
      stackIndex := self.stackIndex.insert locations index })

def finish (self : DictionaryBuilder) : ProfilesDictionary where
  mappingTable := self.mappings
  locationTable := self.locations
  functionTable := self.functions
  linkTable := [{ traceId := List.replicate 16 0, spanId := List.replicate 8 0 }]
  stringTable := self.strings
  attributeTable := self.attributes
  stackTable := self.stackEntries

end DictionaryBuilder

/-! ## Profiles -/

open DictionaryBuilder

/-- The stack of a sample; locations that the profile does not have are left out. -/
def internSampleStack (source : RustProfile.Profile) (lookup : SourceLookup) (self : DictionaryBuilder)
    (sample : RustProfile.Sample) : ℕ × DictionaryBuilder :=
  let (locations, self) := mapState (internLocation source lookup) self
    (sample.locationId.filterMap fun id => lookup.locations.lookup id)
  self.internStack locations

def sampleAttributes (source : RustProfile.Profile) (self : DictionaryBuilder) (sample : RustProfile.Sample) :
    List ℕ × DictionaryBuilder :=
  let (indices, self) := mapState (internPprofLabel source) self sample.label
  (indices.reduceOption, self)

structure Converting where
  dictionary : DictionaryBuilder
  samples : List Sample := []
  grouped : Table (ℕ × List ℕ × ℕ) ℕ := ∅

def Sample.push (value : ℤ) (timestamp : ℕ) (self : Sample) : Sample :=
  { self with values := self.values ++ [value], timestampsUnixNano := self.timestampsUnixNano ++ [timestamp] }

/-- A sample with a timestamp joins the one of the same stack and attributes. -/
def convertSample (source : RustProfile.Profile) (sampleIndex : ℕ) (self : Converting)
    (item : (RustProfile.Sample × ℕ) × Option ℕ) : Converting :=
  let (attributeIndices, dictionary) := sampleAttributes source self.dictionary item.1.1
  let value := item.1.1.value[sampleIndex]?.getD 0
  let sample (timestamps : List ℕ) : Sample :=
    { stackIndex := item.1.2, attributeIndices := attributeIndices, linkIndex := 0, values := [value],
      timestampsUnixNano := timestamps }
  match item.2 with
  | some timestamp =>
    let key := (item.1.2, attributeIndices, 0)
    match self.grouped.lookup key with
    | some index =>
      { self with dictionary := dictionary, samples := self.samples.modify index (Sample.push value timestamp) }
    | none =>
      { dictionary := dictionary
        samples := self.samples ++ [sample [timestamp]]
        grouped := self.grouped.insert key self.samples.length }
  | none => { self with dictionary := dictionary, samples := self.samples ++ [sample []] }

/-- The timestamp of each sample of the source, if it has any. -/
def sampleTimestamps (source : RustProfile.Profile) : Option (List ℕ) → List (Option ℕ)
  | some timestamps => timestamps.map some
  | none => source.sample.map fun _ => none

def internValueType (source : RustProfile.Profile) (self : DictionaryBuilder) (kind : RustProfile.ValueType) :
    ValueType × DictionaryBuilder :=
  let (typeStrindex, self) := self.internString (pprofString source kind.type)
  let (unitStrindex, self) := self.internString (pprofString source kind.unit)
  ({ typeStrindex := typeStrindex, unitStrindex := unitStrindex }, self)

def convertProfile (source : RustProfile.Profile) (sampleIndex : ℕ) (stackIndices : List ℕ)
    (timestamps : Option (List ℕ)) (profileId : Except String (List UInt8)) (dictionary : DictionaryBuilder) :
    Except String (Profile × DictionaryBuilder) :=
  match source.sampleType[sampleIndex]? with
  | none => .error "pprof sample type index is out of bounds"
  | some kind =>
    let (sampleType, dictionary) := internValueType source dictionary kind
    let (periodTypes, dictionary) := mapState (internValueType source) dictionary source.periodType.toList
    let converted := ((source.sample.zip stackIndices).zip (sampleTimestamps source timestamps)).foldl
      (convertSample source sampleIndex) { dictionary := dictionary }
    match profileId with
    | .error error => .error error
    | .ok profileId =>
      .ok ({ sampleType := some sampleType
             samples := converted.samples
             timeUnixNano := source.timeNanos.toNat
             durationNano := source.durationNanos.toNat
             periodType := periodTypes.head?
             period := source.period
             profileId := profileId }, converted.dictionary)

/-! ## The encoding -/

/-- `converted` counts the profiles so far, each of which takes a new id. -/
structure Encoding where
  dictionary : DictionaryBuilder
  scopeProfiles : List ScopeProfiles := []
  converted : ℕ := 0

section
variable (profileId : ℕ → Except String (List UInt8))

def convertTypes (source : RustProfile.Profile) (stackIndices : List ℕ) (timestamps : Option (List ℕ)) :
    List ℕ → ℕ → DictionaryBuilder → Except String (List Profile × DictionaryBuilder)
  | [], _, dictionary => .ok ([], dictionary)
  | sampleIndex :: rest, converted, dictionary =>
    match convertProfile source sampleIndex stackIndices timestamps (profileId converted) dictionary with
    | .error error => .error error
    | .ok (profile, dictionary) =>
      match convertTypes source stackIndices timestamps rest (converted + 1) dictionary with
      | .error error => .error error
      | .ok (profiles, dictionary) => .ok (profile :: profiles, dictionary)

def scopeAttributes (source : RustProfile.Profile) : List KeyValue :=
  let defaultSampleType := pprofString source source.defaultSampleType
  ⟨"pprof.scope.sample_type_order", .intArray ((List.range source.sampleType.length).map Int.ofNat)⟩ ::
    if defaultSampleType = "" then [] else [⟨"pprof.scope.default_sample_type", .string defaultSampleType⟩]

def encodeInput (self : Encoding) (source : RustProfile.Profile) (timestamps : Option (List ℕ)) :
    Except String Encoding :=
  if timestamps.any fun timestamps => timestamps.length ≠ source.sample.length then
    .error "OTLP timeline timestamps do not match the profile sample count"
  else
    let lookup := SourceLookup.new source
    let (stackIndices, dictionary) := mapState (internSampleStack source lookup) self.dictionary source.sample
    match convertTypes profileId source stackIndices timestamps (List.range source.sampleType.length) self.converted
        dictionary with
    | .error error => .error error
    | .ok (profiles, dictionary) =>
      .ok { dictionary := dictionary
            scopeProfiles := self.scopeProfiles ++ [{ attributes := scopeAttributes source, profiles := profiles }]
            converted := self.converted + profiles.length }

def encodeInputs : Encoding → List (RustProfile.Profile × Option (List ℕ)) → Except String Encoding
  | self, [] => .ok self
  | self, input :: inputs =>
    match encodeInput profileId self input.1 input.2 with
    | .error error => .error error
    | .ok self => encodeInputs self inputs

/-- The sources, and after them the timeline with its timestamps. -/
def inputs (sources : List RustProfile.Profile) (timeline : Option (RustProfile.Profile × List ℕ)) :
    List (RustProfile.Profile × Option (List ℕ)) :=
  sources.map (·, none) ++ timeline.toList.map fun timeline => (timeline.1, some timeline.2)

/-- The count of profiles stops at `u32::MAX`. -/
def encodeProfiles (htlhash : ℕ → ℤ → UInt64 → UInt64 → Option String) (sources : List RustProfile.Profile)
    (timeline : Option (RustProfile.Profile × List ℕ)) (pid : ℤ) : Except String ExportPayload :=
  match encodeInputs profileId { dictionary := { processPid := pid, htlhash := htlhash } }
    (inputs sources timeline) with
  | .error error => .error error
  | .ok encoding =>
    .ok { request := { scopeProfiles := encoding.scopeProfiles, dictionary := encoding.dictionary.finish }
          profiles := min encoding.converted (2 ^ 32 - 1) }

end

end Otlp

end RustProfile
