import RustProfile.JitSymbols
import RustProfile.Lib.Fallible
import RustProfile.MapsRefresh

/-!
# Lines of procfs

A line of `/proc/<pid>/maps` is split at its whitespace. The fields behind the
inode are the path, put together again with single spaces.
-/

namespace RustProfile

def utf8 (text : List Char) : List UInt8 := text.flatMap String.utf8EncodeChar

/-- `str::strip_suffix`. -/
def stripSuffix (suffix text : List Char) : Option (List Char) :=
  if suffix <:+ text then some (text.take (text.length - suffix.length)) else none

def deletedSuffix : List Char := " (deleted)".toList

def parseHex (value : Option (List Char)) (field : String) : Except String UInt64 := do
  let value ← Except.context value s!"missing {field}"
  Except.context (fromHex value) s!"invalid {field}"

/-- The path of a mapping, if it has one that is not the kernel's. -/
def mapPath (fields : List (List Char)) : Option (List Char) :=
  let path := [' '].intercalate fields
  if path = [] ∨ path.head? = some '[' then none else some ((stripSuffix deletedSuffix path).getD path)

def parseMapLine (line : List Char) : Except String MapLine := do
  let fields := splitWhitespace line
  let range ← Except.context fields[0]? "mapping is missing address range"
  let permissions ← Except.context fields[1]? "mapping is missing permissions"
  let offset ← parseHex fields[2]? "mapping offset"
  let device ← Except.context fields[3]? "mapping is missing device"
  let inode ← Except.context fields[4]? "mapping is missing inode"
  let inode ← Except.context (parseU64 inode) "invalid mapping inode"
  let path := mapPath (fields.drop 5)
  let (start, stop) ← Except.context (splitOnce ['-'] range) "invalid mapping address range"
  let start ← Except.context (fromHex start) "invalid mapping start"
  let stop ← Except.context (fromHex stop) "invalid mapping end"
  if start ≥ stop then throw "mapping start must be below end"
  return {
    start := start
    stop := stop
    permissions := utf8 permissions
    offset := offset
    device := String.ofList device
    inode := UInt64.ofNat inode
    path := path.map fun path => ⟨utf8 path⟩ }

end RustProfile
