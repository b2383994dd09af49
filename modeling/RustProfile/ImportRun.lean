import RustProfile.Import
import RustProfile.Firefox
import RustProfile.Output
import RustProfile.Lib.Queues
import Mathlib.Data.List.DropRight

/-!
# Import runs

`import::run` spreads the samples of a `perf.data` file over windows and holds at
most `MAX_PENDING_WINDOWS` of them. When a further one opens it writes the lowest,
and from then on drops the samples below that line. Which calls of
`write_import_window` fail is an argument, as is an error that ends the records.
-/

namespace RustProfile

open Queues

def fallbackPeriodNanos : ℕ := 1000000
def maxPendingWindows : ℕ := 4
def maxTrackedThreads : ℕ := 65536

inductive ImportFormat where
  | auto
  | perfData
  | simpleperf
  deriving DecidableEq, Repr

def ImportFormat.name : ImportFormat → String
  | .auto => "auto"
  | .perfData => "perf_data"
  | .simpleperf => "simpleperf"

/-- The arguments of an import; `window` in nanoseconds, `sourceName` the input's file name. -/
structure ImportCommand extends ImportArgs where
  window : ℕ
  input : String
  output : String
  sourceName : String
  format : ImportFormat
  firefoxFormat : FirefoxProfileFormat
  baseUnixNanos : ℤ

structure CommRecord where
  pid : ℤ
  tid : ℤ
  name : String
  deriving DecidableEq, Repr

structure SampleRecord where
  timestamp : Option UInt64
  pid : Option ℤ
  tid : Option ℤ
  ip : Option UInt64
  callchain : Option (List UInt64)
  deriving DecidableEq, Repr

inductive PerfFileRecord where
  | comm (comm : CommRecord)
  | sample (sample : SampleRecord)
  | other
  deriving DecidableEq, Repr

/-- The records of one file and the error that ends them, if one does. A record takes
at least the 8 bytes of its header and the length of a file is a `u64`. -/
structure PerfFile where
  records : List PerfFileRecord
  error : Option String
  bounded : 8 * records.length ≤ u64Max

inductive ImportError where
  | zeroWindow
  | read (message : String)
  | write (message : String)
  | noSamples
  deriving DecidableEq, Repr

/-! ## Writing a window -/

structure ImportDiagnostics where
  schemaVersion : ℕ
  source : String
  format : String
  startedUnixNanos : ℤ
  endedUnixNanos : ℤ
  samples : ℕ
  aggregationDroppedSamples : ℕ
  timelineDroppedSamples : ℕ
  outputs : List String
  deriving DecidableEq, Repr

structure ImportFiles where
  cpu : String × Profile
  firefox : Option (String × FirefoxProfile)
  diagnostics : String × ImportDiagnostics

def joinPath (directory name : String) : String :=
  if directory = "" then name else if directory.endsWith "/" then directory ++ name else directory ++ "/" ++ name

/-- `{index:06}`. -/
def paddedIndex (index : ℕ) : String :=
  let digits := toString index
  String.ofList (List.replicate (6 - digits.length) '0') ++ digits

def FirefoxProfileFormat.extension : FirefoxProfileFormat → String
  | .json => "json.gz"
  | .jslb => "jslb.gz"

namespace ImportCommand

def perfContextMax : UInt64 := 0xFFFFFFFFFFFFF000

variable (self : ImportCommand)

def windowNanos : ℕ := min self.window u64Max

def startedUnixNanos (index : ℕ) : ℤ :=
  saturatingAddI64 self.baseUnixNanos (saturatingI64 (min (index * self.windowNanos) u64Max))

def endedUnixNanos (index : ℕ) : ℤ := saturatingAddI64 (self.startedUnixNanos index) (saturatingI64 self.windowNanos)

def basename (index : ℕ) : String := "import-" ++ paddedIndex index ++ "-" ++ toString (self.startedUnixNanos index)

/-- `i64::saturating_sub` of the window's end and start. -/
def durationNanos (index : ℕ) : ℤ :=
  max (-2 ^ 63) (min (self.endedUnixNanos index - self.startedUnixNanos index) i64Max)

def writeImportWindow (iter : IterOrder) (index : ℕ) (window : ImportWindow) : ImportFiles :=
  let started := self.startedUnixNanos index
  let basename := self.basename index
  let cpuPath := joinPath self.output ("cpu-" ++ basename ++ ".pb.gz")
  let cpu := writeRawCpuProfile iter window.samples started (self.durationNanos index) fallbackPeriodNanos
  let firefox :=
    if self.firefoxProfile then
      some (joinPath self.output ("firefox-" ++ basename ++ "." ++ self.firefoxFormat.extension),
        writeFirefoxProfile window.timeline started 1000 self.sourceName none)
    else none
  let diagnosticsPath := joinPath self.output ("diagnostics-" ++ basename ++ ".json")
  { cpu := (cpuPath, cpu)
    firefox := firefox
    diagnostics := (diagnosticsPath,
      { schemaVersion := 3
        source := self.input
        format := self.format.name
        startedUnixNanos := started
        endedUnixNanos := self.endedUnixNanos index
        samples := window.totalSamples
        aggregationDroppedSamples := window.aggregationDroppedSamples
        timelineDroppedSamples := window.timelineDroppedSamples
        outputs := [cpuPath] ++ (firefox.map Prod.fst).toList ++ [diagnosticsPath] }) }

end ImportCommand

/-! ## Reading a record -/

/-- `u32::try_from` of an `i32`. -/
def tryU32 (value : ℤ) : Option UInt32 := if 0 ≤ value then some (UInt32.ofNat value.toNat) else none

/-- `trim_end_matches('\0')`. -/
def trimEndNul (name : String) : String := String.ofList (name.toList.rdropWhile (· = Char.ofNat 0))

/-- The timestamp and the thread of a sample that has them. -/
def SampleRecord.thread (sample : SampleRecord) : Option (ℕ × UInt32 × UInt32) := do
  let timestamp ← sample.timestamp
  let pid ← sample.pid
  let tid ← sample.tid
  let pid ← tryU32 pid
  let tid ← tryU32 tid
  pure (timestamp.toNat, pid, tid)

def isUserAddress (address : UInt64) : Bool := address ≠ 0 && address < ImportCommand.perfContextMax

/-- Push the addresses of a call chain, each that is not the last one pushed. -/
def pushAddresses : List UInt64 → List UInt64 → List UInt64
  | [], addresses => addresses
  | address :: callchain, addresses =>
    -- with a leaf that the chain repeats go the repeats of a function that calls itself from one place
    if isUserAddress address ∧ addresses.getLast? ≠ some address then pushAddresses callchain (addresses ++ [address])
    else pushAddresses callchain addresses

def SampleRecord.addresses (sample : SampleRecord) : List UInt64 :=
  pushAddresses (sample.callchain.getD []) (sample.ip.filter isUserAddress).toList

/-! ## The run -/

/-- The state of a run; `calls` lists what `write_import_window` was called with and
`written` the files of the calls that succeeded. -/
structure Importing where
  firstTimestamp : Option ℕ := none
  threadNames : Table (UInt32 × UInt32) String := ∅
  lastThreadTimestamp : Table (UInt32 × UInt32) ℕ := ∅
  windows : OrdMap ℕ ImportWindow := OrdMap.empty
  flushedBefore : ℕ := 0
  lateSamplesDropped : ℕ := 0
  threadStateDropped : ℕ := 0
  wroteWindows : ℕ := 0
  calls : List (ℕ × ImportWindow) := []
  written : List ImportFiles := []

namespace Importing

section
variable (self : Importing)

def comm (comm : CommRecord) : Importing :=
  match tryU32 comm.pid, tryU32 comm.tid with
  | some pid, some tid =>
    if (pid, tid) ∈ self.threadNames ∨ self.threadNames.size < maxTrackedThreads then
      { self with threadNames := self.threadNames.insert (pid, tid) (trimEndNul comm.name) }
    else self
  | _, _ => self

/-- The time since the thread's last sample, or the fallback period. -/
def delta (windowNanos : ℕ) (thread : UInt32 × UInt32) (timestamp : ℕ) : ℕ × Importing :=
  if thread ∈ self.lastThreadTimestamp ∨ self.lastThreadTimestamp.size < maxTrackedThreads then
    let elapsed := (self.lastThreadTimestamp.lookup thread).map fun previous => min (timestamp - previous) windowNanos
    ((elapsed.filter (· ≠ 0)).getD fallbackPeriodNanos,
      { self with lastThreadTimestamp := self.lastThreadTimestamp.insert thread timestamp })
  else (fallbackPeriodNanos, { self with threadStateDropped := saturatingAddU64 self.threadStateDropped 1 })

end

section
variable (command : ImportCommand) (iter : IterOrder) (writes : ℕ → Option String)

/-- Call `write_import_window`; `writes` says which calls fail. -/
def writeWindow (self : Importing) (index : ℕ) (window : ImportWindow) : Except ImportError Unit × Importing :=
  let called := { self with calls := self.calls ++ [(index, window)] }
  match writes self.calls.length with
  | some message => (.error (.write message), called)
  | none => (.ok (), { called with written := called.written ++ [command.writeImportWindow iter index window] })

def advance (self : Importing) (flushedIndex : ℕ) : Importing :=
  { self with
    flushedBefore := saturatingAddU64 flushedIndex 1
    wroteWindows := saturatingAddU64 self.wroteWindows 1 }

/-- Write the lowest windows while more than `MAX_PENDING_WINDOWS` are pending, which `pending` lists. -/
def flush : List (ℕ × ImportWindow) → Importing → Except ImportError Unit × Importing
  | [], self => (.ok (), self)
  | (index, window) :: pending, self =>
    if ((index, window) :: pending).length > maxPendingWindows then
      match writeWindow command iter writes { self with windows := self.windows.erase index } index window with
      | (.error error, self) => (.error error, self)
      | (.ok _, self) => flush pending (self.advance index)
    else (.ok (), self)

/-- A sample with its addresses enters the window `index`. -/
def add (self : Importing) (index timestamp : ℕ) (thread : UInt32 × UInt32) (addresses : List UInt64) :
    ImportSample × Importing :=
  let name := self.threadNames.lookup thread
  let (delta, self) := self.delta command.windowNanos thread timestamp
  let sample : ImportSample :=
    { stack := Stack.ofAddresses addresses, pid := thread.1, tid := thread.2, name := name
      timestamp := timestamp, delta := delta }
  (sample, { self with windows := self.windows.update index {} (·.add command.toImportArgs sample) })

def sample (self : Importing) (sample : SampleRecord) : Except ImportError Unit × Importing :=
  match sample.thread with
  | none => (.ok (), self)
  | some (timestamp, thread) =>
    let first := self.firstTimestamp.getD timestamp
    let self := { self with firstTimestamp := some first }
    let index := (timestamp - first) / command.windowNanos
    -- its window is written already
    if index < self.flushedBefore then
      (.ok (), { self with lateSamplesDropped := saturatingAddU64 self.lateSamplesDropped 1 })
    else if sample.addresses = [] then (.ok (), self)
    else
      let self := (self.add command index timestamp thread sample.addresses).2
      flush command iter writes self.windows.entries self

def record (self : Importing) : PerfFileRecord → Except ImportError Unit × Importing
  | .comm comm => (.ok (), self.comm comm)
  | .sample sample => self.sample command iter writes sample
  | .other => (.ok (), self)

def records : List PerfFileRecord → Importing → Except ImportError Unit × Importing
  | [], self => (.ok (), self)
  | record :: rest, self =>
    match self.record command iter writes record with
    | (.error error, self) => (.error error, self)
    | (.ok _, self) => records rest self

def writeRemaining : List (ℕ × ImportWindow) → Importing → Except ImportError Unit × Importing
  | [], self => (.ok (), self)
  | (index, window) :: pending, self =>
    match writeWindow command iter writes { self with windows := self.windows.erase index } index window with
    | (.error error, self) => (.error error, self)
    | (.ok _, self) => writeRemaining pending self

def finish (self : Importing) : Except ImportError Unit × Importing :=
  -- no sample had a thread and an address
  if self.windows.entries = [] ∧ self.wroteWindows = 0 then (.error .noSamples, self)
  else writeRemaining command iter writes self.windows.entries self

end

end Importing

/-- `import::run` over the records of the input file. -/
def importRun (command : ImportCommand) (iter : IterOrder) (writes : ℕ → Option String) (file : PerfFile) :
    Except ImportError Unit × Importing :=
  if command.window = 0 then (.error .zeroWindow, {})
  else
    match Importing.records command iter writes file.records {} with
    | (.error error, self) => (.error error, self)
    | (.ok _, self) =>
      match file.error with
      | some message => (.error (.read message), self)
      | none => self.finish command iter writes

end RustProfile
