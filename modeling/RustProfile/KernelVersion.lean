import RustProfile.Lib.Fallible
import RustProfile.Target

/-!
# Kernel releases

The version in the release string of the running kernel, and what depends on
it: whether the kernel is supported, whether heap profiling is, and whether the
lifecycle notifier uses eBPF.
-/

namespace RustProfile

structure KernelVersion where
  major : UInt32
  minor : UInt32
  patch : UInt32
  deriving DecidableEq, Repr

inductive KernelVersionError where
  /-- `invalid kernel release {original:?}` -/
  | invalidRelease (original : List Char)
  /-- `invalid kernel patch version` -/
  | invalidPatch
  deriving DecidableEq, Repr

/-- `str::parse::<u32>`. -/
def parseU32 (s : List Char) : Option UInt32 :=
  ((parseDigits (if s.head? = some '+' then s.tail else s)).filter (· < 2 ^ 32)).map UInt32.ofNat

def parseVersionPart (part : Option (List Char)) (original : List Char) : Except KernelVersionError UInt32 :=
  match part with
  | none => .error (.invalidRelease original)
  | some part => Except.context (parseU32 part) (.invalidRelease original)

namespace KernelVersion

def minimum : KernelVersion := ⟨5, 4, 0⟩
def bpfRingBufferMinimum : KernelVersion := ⟨5, 8, 0⟩
def heapMinimum : KernelVersion := ⟨5, 12, 0⟩

/-- What stands before the first dash, in parts between dots. Parts after the third are not read. -/
def fromStr (value : List Char) : Except KernelVersionError KernelVersion := do
  let version := ((splitOnce ['-'] value).map Prod.fst).getD value
  let parts := version.splitOn '.'
  let major ← parseVersionPart parts[0]? value
  let minor ← parseVersionPart parts[1]? value
  let patch ← match parts[2]? with
    | some part => Except.context (parseU32 part) .invalidPatch
    | none => .ok 0
  return ⟨major, minor, patch⟩

variable (self : KernelVersion)

def atLeast (other : KernelVersion) : Bool :=
  other.major < self.major ||
    (other.major = self.major && (other.minor < self.minor || (other.minor = self.minor && other.patch ≤ self.patch)))

def isSupported : Bool := self.atLeast minimum
def supportsBpfRingBuffer : Bool := self.atLeast bpfRingBufferMinimum
def supportsHeap : Bool := self.atLeast heapMinimum

end KernelVersion

structure LifecycleNotifier where
  bpf : Bool
  fallbackReason : Option String
  deriving DecidableEq, Repr

namespace LifecycleNotifier

def fallback (reason : String) : LifecycleNotifier where
  bpf := false
  fallbackReason := some (reason ++ "; using one-second procfs lifecycle reconciliation")

/-- `attachBpf` is how the attempt to attach ends. -/
def attach (attachBpf : Except String Unit) (kernelRelease : String) : Except KernelVersionError LifecycleNotifier := do
  let version ← KernelVersion.fromStr kernelRelease.toList
  if !version.supportsBpfRingBuffer then
    return fallback ("kernel " ++ kernelRelease ++ " has no upstream BPF ring buffer support")
  else
    match attachBpf with
    | .ok () => return ⟨true, none⟩
    | .error error => return fallback ("lifecycle eBPF attachment failed: " ++ error)

end LifecycleNotifier

/-- What `inspect` says of the kernel: its error, and why there is no heap profiling. -/
def inspectKernel (kernelRelease : String) : Except KernelVersionError (List String × Option String) := do
  let version ← KernelVersion.fromStr kernelRelease.toList
  let errors :=
    if version.isSupported then [] else ["kernel " ++ kernelRelease ++ " is below the required Linux 5.4 baseline"]
  let reason :=
    if version.supportsHeap then none
    else some ("heap profiling requires Linux 5.12 or newer; kernel " ++ kernelRelease ++
      " supports CPU profiling only")
  return (errors, reason)

end RustProfile
