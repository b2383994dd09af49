import Mathlib.Data.Int.ConditionallyCompleteOrder
import Mathlib.Data.List.Sort
import Mathlib.Data.Prod.Lex
import Mathlib.Data.String.Basic
import Mathlib.Order.WithBot
import RustProfile.DockerBody
import RustProfile.FileNames
import RustProfile.Json
import RustProfile.MapLines

/-!
# The gallery

The viewer lists the Firefox profiles of a directory, the newest first, with
what their names and the diagnostics beside them say. A profile is asked for by
the hash of its file's name.
-/

namespace RustProfile

namespace Gallery

def maxProfileBytes : ℕ := 512 * 1024 * 1024
def maxDiagnosticBytes : ℕ := 1024 * 1024
def maxDirectoryEntries : ℕ := 16384
def maxGalleryProfiles : ℕ := 4096

/-! ## Names -/

/-- `str::strip_prefix`. -/
def stripStart (start text : List Char) : Option (List Char) :=
  if start <+: text then some (text.drop start.length) else none

/-- `str::rsplit_once` of a character. -/
def rsplitOnce (c : Char) (text : List Char) : Option (List Char × List Char) :=
  match text.reverse.span (· ≠ c) with
  | (_, []) => none
  | (after, _ :: before) => some (before.reverse, after.reverse)

/-- `str::rsplitn`. -/
def rsplitn : ℕ → Char → List Char → List (List Char)
  | 0, _, _ => []
  | 1, _, text => [text]
  | n + 2, c, text =>
    match rsplitOnce c text with
    | some (before, after) => after :: rsplitn (n + 1) c before
    | none => [text]

/-- `str::parse::<i64>`. -/
def parseI64 (s : List Char) : Option ℤ :=
  match s with
  | '-' :: digits => ((parseDigits digits).filter (· ≤ 2 ^ 63)).map fun n => -(n : ℤ)
  | '+' :: digits => ((parseDigits digits).filter (· ≤ i64Max)).map (↑)
  | digits => ((parseDigits digits).filter (· ≤ i64Max)).map (↑)

/-- `is_firefox_profile` of a file's name. -/
def isFirefoxProfile (filename : String) : Bool :=
  "firefox-".toList <+: filename.toList ∧
    (".json.gz".toList <:+ filename.toList ∨ ".jslb.gz".toList <:+ filename.toList)

/-- What is left of a name without its label and its extension. -/
def stemOf (filename : List Char) : List Char :=
  let name := (stripStart "firefox-".toList filename).getD filename
  ((stripSuffix ".json.gz".toList name).or (stripSuffix ".jslb.gz".toList name)).getD filename

/-! ## Entries -/

/-- A path as its parent and its last component. -/
structure GalleryPath where
  parent : Option String
  fileName : Option (List UInt8)
  deriving DecidableEq, Repr

structure ProfileEntry where
  id : String
  filename : String
  session : String
  windowIndex : Option ℕ
  startedUnixNanos : Option ℤ
  format : String
  compressedBytes : ℕ
  samples : Option ℕ
  droppedSamples : Option ℕ
  path : GalleryPath
  deriving DecidableEq, Repr

/-- An item of a directory; its type may be unknown. -/
structure DirectoryItem where
  name : List UInt8
  isFile : Option Bool
  deriving DecidableEq, Repr

/-- The files, and what the libraries do with them: a file's length, its contents if it can be opened and read, JSON's
values and the hash of a name. -/
structure GalleryFiles (F : Type) where
  readDir : String → Except String (List (Option DirectoryItem))
  display : GalleryPath → String
  length : GalleryPath → Except String ℕ
  contents : String → String → Option (List UInt8)
  parseJson : List UInt8 → Option (Value F)
  digest : String → String

inductive Source where
  | profile (path : GalleryPath)
  | directory (directory : String)

section
variable {F : Type}

/-- `Value::get` of a field. -/
def getField (name : String) (value : Value F) : Option (Value F) :=
  value.asObject.bind fun fields => fields.lookup name

def countOf (firefox : Option (Value F)) (name : String) : Option ℕ :=
  ((firefox.bind (getField name)).bind Value.asU64).map UInt64.toNat

variable (files : GalleryFiles F)

def diagnostics (path : GalleryPath) (stem : String) : Option ℕ × Option ℕ :=
  match path.parent.bind fun parent => files.contents parent ("diagnostics-" ++ stem ++ ".json") with
  | none => (none, none)
  | some bytes =>
    if bytes.length > maxDiagnosticBytes then (none, none)
    else
      match files.parseJson bytes with
      | none => (none, none)
      | some value =>
        let firefox := getField "firefox" value
        (countOf firefox "samples", countOf firefox "dropped_samples")

def entryFor (path : GalleryPath) : Except String ProfileEntry := do
  let length ← files.length path
  if length > maxProfileBytes then
    throw ("profile " ++ files.display path ++ " is " ++ toString length ++ " bytes, exceeding the " ++
      toString maxProfileBytes ++ " byte serve limit")
  let filename ← Except.context (path.fileName.bind fromUtf8) "profile filename is not valid UTF-8"
  let stem := stemOf filename.toList
  let parts := rsplitn 3 '-' stem
  let counts := diagnostics files path (String.ofList stem)
  return {
    id := files.digest filename
    filename := filename
    session := String.ofList (parts[2]?.getD stem)
    windowIndex := parts[1]?.bind parseU64
    startedUnixNanos := parts[0]?.bind parseI64
    format := if ".jslb.gz".toList <:+ filename.toList then "jslb" else "json"
    compressedBytes := length
    samples := counts.1
    droppedSamples := counts.2
    path := path }

/-- The entry of an item, if it is one of a profile. -/
def itemEntry (directory : String) (item : Option DirectoryItem) : Option ProfileEntry :=
  match item with
  | none => none
  | some item =>
    let path : GalleryPath := ⟨some directory, some item.name⟩
    if item.isFile = some true ∧ (fromUtf8 item.name).any isFirefoxProfile then (entryFor files path).toOption else none

/-- The newest have the greatest key; one without a start is older than the others. -/
def ProfileEntry.key (self : ProfileEntry) : WithBot ℤ ×ₗ String := toLex (self.startedUnixNanos, self.filename)

def newestFirst (entries : List ProfileEntry) : List ProfileEntry := entries.insertionSort fun a b => b.key ≤ a.key

/-- The entries before they are sorted. -/
def foundEntries : Source → Except String (List ProfileEntry)
  | .profile path => (entryFor files path).map ([·])
  | .directory directory =>
    (files.readDir directory).map fun items => (items.take maxDirectoryEntries).filterMap (itemEntry files directory)

def entries (source : Source) : Except String (List ProfileEntry) :=
  (foundEntries files source).map fun found => (newestFirst found).take maxGalleryProfiles

def find (source : Source) (id : String) : Except String (Option ProfileEntry) :=
  (entries files source).map fun entries => entries.find? (·.id = id)

end

end Gallery

end RustProfile
