import Mathlib.Data.List.Sort
import RustProfile.CpuWindow
import RustProfile.Lib.LastCover
import RustProfile.Lib.UInt64Order
import RustProfile.SymbolTables
import RustProfile.Target

/-!
# Code compiled at run time

A perf map lists code ranges as text, one a line. A jitdump is a sequence of
records that load or move code. Both are read into tables sorted by start; the
sort is unstable, and the jitdump's entries come out of a hash map.
-/

namespace RustProfile

open UInt64Order

/-- `sort_unstable_by_key(|symbol| symbol.start)`: equal starts may end up in any order. -/
structure UnstableSort where
  sort : List JitSymbol → List JitSymbol
  sorted : ∀ symbols, LastCover.SortedByStart JitSymbol.start (sort symbols) symbols

/-- `start.saturating_add(size)`. -/
def addSaturating (start size : UInt64) : UInt64 := UInt64.ofNat (min (start.toNat + size.toNat) u64Max)

/-! ## Perf maps -/

/-- The lines of a text; a carriage return before the line feed is left out. -/
def textLines : List Char → List Char → List (List Char)
  | [], current => if current = [] then [] else [current.reverse]
  | c :: text, current =>
    if c = '\n' then
      (if current.head? = some '\r' then current.tail.reverse else current.reverse) :: textLines text []
    else textLines text (c :: current)

def hexDigit (c : Char) : Option ℕ :=
  if '0' ≤ c ∧ c ≤ '9' then some (c.toNat - '0'.toNat)
  else if 'a' ≤ c ∧ c ≤ 'f' then some (c.toNat - 'a'.toNat + 10)
  else if 'A' ≤ c ∧ c ≤ 'F' then some (c.toNat - 'A'.toNat + 10)
  else none

def hexDigits : List Char → ℕ → Option ℕ
  | [], value => some value
  | c :: digits, value => do
    let digit ← hexDigit c
    if value * 16 + digit < 2 ^ 64 then hexDigits digits (value * 16 + digit) else none

/-- `u64::from_str_radix(text, 16)`. -/
def fromHex (text : List Char) : Option UInt64 :=
  let digits := if text.head? = some '+' then text.tail else text
  if digits = [] then none else (hexDigits digits 0).map UInt64.ofNat

def perfMapLine (line : List Char) : Option JitSymbol := do
  let (start, rest) ← splitOnce [' '] line
  let (size, name) ← splitOnce [' '] rest
  let start ← fromHex start
  let size ← fromHex size
  let name := trim (String.ofList name)
  if name ≠ "" ∧ size ≠ 0 then some { start := start, stop := addSaturating start size, name := name }
  else none

/-- When the file was modified, and its text, if it can be read as one. -/
structure PerfMapFile where
  modified : Option ℕ
  contents : Option (List Char)

def maxPerfMapBytes : ℕ := 16 * 1024 * 1024

def PerfMapFile.entries (file : PerfMapFile) : List JitSymbol :=
  match file.contents with
  | some contents =>
    if (contents.map Char.utf8Size).sum > maxPerfMapBytes then [] else (textLines contents []).filterMap perfMapLine
  | none => []

def loadPerfMap (sort : UnstableSort) (file : PerfMapFile) : Option ℕ × List JitSymbol :=
  (file.modified, sort.sort file.entries)

/-! ## Jitdumps -/

inductive JitDumpRecord where
  | codeLoad (codeIndex codeAddr : UInt64) (codeBytes : UInt64) (functionName : List UInt8)
  | codeMove (codeIndex newCodeAddr codeSize : UInt64)
  | other

/-- `trim_end_matches('\0')` of the lossy text. -/
def functionName (bytes : List UInt8) : String :=
  String.ofList ((decodeLossy bytes.length bytes).reverse.dropWhile fun c => c.toNat = 0).reverse

def loadedSymbol (codeAddr codeBytes : UInt64) (name : List UInt8) : JitSymbol where
  start := codeAddr
  stop := addSaturating codeAddr codeBytes
  name := functionName name

def JitSymbol.moved (symbol : JitSymbol) (newCodeAddr codeSize : UInt64) : JitSymbol :=
  { symbol with start := newCodeAddr, stop := addSaturating newCodeAddr codeSize }

def JitDumpRecord.apply (byIndex : Table UInt64 JitSymbol) : JitDumpRecord → Table UInt64 JitSymbol
  | .codeLoad codeIndex codeAddr codeBytes name => byIndex.insert codeIndex (loadedSymbol codeAddr codeBytes name)
  | .codeMove codeIndex newCodeAddr codeSize =>
    match byIndex.lookup codeIndex with
    | some symbol => byIndex.insert codeIndex (symbol.moved newCodeAddr codeSize)
    | none => byIndex
  | .other => byIndex

def maxJitSymbols : ℕ := 65536
def maxJitdumpBytes : ℕ := 64 * 1024 * 1024

/-- Read on until the table is full. -/
def readJitdump : List JitDumpRecord → Table UInt64 JitSymbol → Table UInt64 JitSymbol
  | [], byIndex => byIndex
  | record :: records, byIndex =>
    if byIndex.size < maxJitSymbols then readJitdump records (record.apply byIndex) else byIndex

/-- The size in the fingerprint, and the records up to the first that cannot be read, if the file is a jitdump. -/
structure JitDumpFile where
  size : ℕ
  records : Option (List JitDumpRecord)

def JitDumpFile.read (byIndex : Table UInt64 JitSymbol) (file : JitDumpFile) : Table UInt64 JitSymbol :=
  if file.size > maxJitdumpBytes then byIndex
  else match file.records with
    | some records => readJitdump records byIndex
    | none => byIndex

def jitdumpTable (files : List JitDumpFile) : Table UInt64 JitSymbol := files.foldl JitDumpFile.read ∅

def loadJitdumpSymbols (iter : IterOrder) (sort : UnstableSort) (files : List JitDumpFile) : List JitSymbol :=
  sort.sort (iter.order ((jitdumpTable files).entries.map fun entry => entry.2))

/-! ## Who owns an address -/

def JitSymbol.Covers (symbol : JitSymbol) (address : UInt64) : Prop := symbol.start ≤ address ∧ address < symbol.stop

/-- The code that is loaded, each in the place of its last record. -/
abbrev Owners := List (UInt64 × JitSymbol)

/-- The owners once a record has been read: the code that it loads or moves comes last. -/
def JitDumpRecord.record (owners : Owners) : JitDumpRecord → Owners
  | .codeLoad codeIndex codeAddr codeBytes name =>
    owners.filter (fun owner => owner.1 ≠ codeIndex) ++ [(codeIndex, loadedSymbol codeAddr codeBytes name)]
  | .codeMove codeIndex newCodeAddr codeSize =>
    match owners.find? fun owner => owner.1 = codeIndex with
    | some owner =>
      owners.filter (fun owner => owner.1 ≠ codeIndex) ++ [(codeIndex, owner.2.moved newCodeAddr codeSize)]
    | none => owners
  | .other => owners

def recordOwners : List JitDumpRecord → Owners → Owners
  | [], owners => owners
  | record :: records, owners =>
    if owners.length < maxJitSymbols then recordOwners records (record.record owners) else owners

def JitDumpFile.owners (owners : Owners) (file : JitDumpFile) : Owners :=
  if file.size > maxJitdumpBytes then owners
  else match file.records with
    | some records => recordOwners records owners
    | none => owners

def jitdumpEntries (files : List JitDumpFile) : List JitSymbol := (files.foldl JitDumpFile.owners []).map (·.2)

def ownerOf (entries : List JitSymbol) (address : UInt64) : Option JitSymbol :=
  LastCover.lastCover JitSymbol.start JitSymbol.stop entries address

/-- An entry that is not recorded again starts before each later one that it shares an address with, and where an
entry ends inside of another one, its end is covered by one that starts behind its start. -/
def WellNested (entries : List JitSymbol) : Prop :=
  LastCover.LaterStartsBehind JitSymbol.start JitSymbol.stop entries ∧
    LastCover.EndsCovered JitSymbol.start JitSymbol.stop entries

/-- In the perf map's table each address that is covered is found in the entry that owns it. -/
def PerfMapFile.FindsOwners (file : PerfMapFile) : Prop :=
  ∀ (sort : UnstableSort) (address : UInt64), (∃ symbol ∈ (loadPerfMap sort file).2, symbol.Covers address) →
    findJitSymbol (loadPerfMap sort file).2 address = ownerOf file.entries address

/-- And so it is in the jitdump's. -/
def JitdumpFindsOwners (files : List JitDumpFile) : Prop :=
  ∀ (iter : IterOrder) (sort : UnstableSort) (address : UInt64),
    (∃ symbol ∈ loadJitdumpSymbols iter sort files, symbol.Covers address) →
    findJitSymbol (loadJitdumpSymbols iter sort files) address = ownerOf (jitdumpEntries files) address

end RustProfile
