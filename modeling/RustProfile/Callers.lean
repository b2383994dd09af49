import RustProfile.DwarfUnwinder
import RustProfile.HeapCollector
import RustProfile.PerfRecord
import RustProfile.SymbolTables

/-!
# Callers

A call chain is the address that runs and the return addresses of the calls that
led there. The kernel records it in the samples of perf and in the events of the
heap program, and framehop finds it in a copy of the stack. The symbolizer looks
up every address in the same way.
-/

namespace RustProfile

structure CodeFunction where
  start : UInt64
  stop : UInt64
  notNull : 0 < start.toNat
  user : stop.toNat ≤ 2 ^ 63

def CodeFunction.Contains (function : CodeFunction) (address : UInt64) : Prop :=
  function.start ≤ address ∧ address < function.stop

/-- A call instruction and the address behind it, which is the function's end if the function ends with the call. -/
structure CallSite where
  function : CodeFunction
  instruction : UInt64
  returnAddress : UInt64
  starts : function.start ≤ instruction
  behind : instruction < returnAddress
  ends : returnAddress ≤ function.stop

structure CallChain where
  leafFunction : CodeFunction
  leaf : UInt64
  inLeaf : leafFunction.Contains leaf
  calls : List CallSite

namespace CallChain

variable (self : CallChain)

def addresses : List UInt64 := self.leaf :: self.calls.map CallSite.returnAddress

def frames : List FrameAddress :=
  .instructionPointer self.leaf :: self.calls.map fun call => .returnAddress call.returnAddress

def functions : List CodeFunction := self.leafFunction :: self.calls.map CallSite.function

end CallChain

structure CodeLayout where
  functions : List CodeFunction
  disjoint : functions.Pairwise fun f g => f.stop ≤ g.start ∨ g.stop ≤ f.start

/-- The iterator gives these frames and then ends. -/
def Framehop.Yields {δ ι : Type} (self : Framehop δ ι) : List FrameAddress → ι → Prop
  | [], iterator => (self.next iterator).1 = .done
  | frame :: frames, iterator => (self.next iterator).1 = .frame frame ∧ self.Yields frames (self.next iterator).2

/-! ## One chain, recorded three times -/

structure Recording (δ ι : Type) where
  layout : CodeLayout
  chain : CallChain
  body : SampleBody
  registerMask : UInt64
  event : RawEvent
  unwinder : DwarfUnwinder δ ι
  cache : δ
  registers : RawRegisters
  stackBytes : List UInt8

namespace Recording

variable {δ ι : Type}

section
variable (self : Recording δ ι)

def perfFrames : List UInt64 :=
  match (parseSample self.body.bytes .fp self.registerMask).map PerfSample.data with
  | some (.framePointer frames) => frames
  | _ => []

def heapFrames : List UInt64 := parseFpStack self.event

def dwarfFrames : List UInt64 := (self.unwinder.unwindBytes self.cache self.registers self.stackBytes).1.frames

end

/-- Each source has the chain, and the chain's functions are executable. -/
structure Records (recording : Recording δ ι) : Prop where
  laidOut : ∀ function ∈ recording.chain.functions, function ∈ recording.layout.functions
  executable : ∀ function ∈ recording.chain.functions, ∀ address, function.Contains address →
    recording.unwinder.executableRanges.contains address = true
  bodyIp : recording.body.ip = recording.chain.leaf
  bodyWords : userAddresses recording.body.words = recording.chain.addresses
  eventIp : recording.event.header.ip = recording.chain.leaf
  eventStack : recording.event.stack = encodeWords recording.chain.addresses
  eventLength : recording.event.header.stackLength = recording.event.stack.length
  resolved : recording.unwinder.normalizeCodeAddress recording.registers.ip = some recording.chain.leaf
  yields : recording.unwinder.framehop.Yields recording.chain.frames (recording.unwinder.framehop.iterFrames
    recording.cache recording.chain.leaf recording.registers recording.stackBytes)

end Recording

/-! ## Who called -/

/-- The address of each frame but the leaf lies in the function that made the call. -/
def AttributesCallers (calls : List CallSite) (addresses : List UInt64) : Prop :=
  ∀ (i : ℕ) (call : CallSite) (address : UInt64), calls[i]? = some call → addresses[i + 1]? = some address →
    call.function.Contains address

/-- The function that the symbolizer names, less what is inlined into it. -/
def functionNameAt (tables : SymbolTables) (demangler : Demangler) (address : UInt64) : Option String :=
  (tables.resolveUncached demangler address).lines.getLast?.map SymbolizedLine.function

def NamesByLayout (layout : CodeLayout) (name : CodeFunction → String) (tables : SymbolTables) (demangler : Demangler) :
    Prop :=
  ∀ function ∈ layout.functions, ∀ address, function.Contains address →
    functionNameAt tables demangler address = some (name function)

def SameNames (tables : SymbolTables) (demangler : Demangler) (xs ys : List UInt64) : Prop :=
  ∀ (i : ℕ) (x y : UInt64), xs[i]? = some x → ys[i]? = some y →
    functionNameAt tables demangler x = functionNameAt tables demangler y

/-- Callers are attributed in each mode, and named alike in all. -/
structure Recording.CallersNamed {δ ι : Type} (recording : Recording δ ι) : Prop where
  perf : AttributesCallers recording.chain.calls recording.perfFrames
  heap : AttributesCallers recording.chain.calls recording.heapFrames
  dwarf : AttributesCallers recording.chain.calls recording.dwarfFrames
  names : ∀ tables demangler name, NamesByLayout recording.layout name tables demangler →
    SameNames tables demangler recording.perfFrames recording.dwarfFrames ∧
      SameNames tables demangler recording.heapFrames recording.dwarfFrames

/-- None of the calls that fit a stack of 127 frames is the last instruction of its function. -/
def CallChain.ReturnsInside (chain : CallChain) : Prop :=
  ∀ call ∈ chain.calls.take (defaultMaxFrames - 1), call.returnAddress < call.function.stop

end RustProfile
