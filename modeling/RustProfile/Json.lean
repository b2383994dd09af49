import RustProfile.Ints
import RustProfile.Lib.Fallible

/-!
# JSON values

What `serde_json` parses, with the readers the viewer uses. The fields of an
object have distinct names and stand in their order.
-/

namespace RustProfile

/-- What the code computes with an `f64`. -/
class F64 (F : Type) where
  zero : F
  add : F → F → F
  isNegative : F → Bool
  isFinite : F → Bool
  ofInt : ℤ → F
  display : F → String

/-- A float is finite. -/
inductive Number (F : Type) where
  | posInt (n : UInt64)
  | negInt (n : Int64)
  | float (x : F)
  deriving DecidableEq

inductive Value (F : Type) where
  | null
  | bool (b : Bool)
  | number (n : Number F)
  | string (s : String)
  | array (values : List (Value F))
  | object (fields : List (String × Value F))

/-- `usize::try_from` of an `i64`. -/
def toUsize (n : ℤ) : Option ℕ := if 0 ≤ n then some n.toNat else none

theorem toUsize_eq_some {n : ℤ} {m : ℕ} : toUsize n = some m ↔ n = m := by
  unfold toUsize
  split
  · rw [Option.some.injEq]
    omega
  · constructor
    · intro h
      cases h
    · omega

section
variable {F : Type}

namespace Number

def asI64 : Number F → Option ℤ
  | posInt n => if n.toNat ≤ i64Max then some n.toNat else none
  | negInt n => some n.toInt
  | float _ => none

def asU64 : Number F → Option UInt64
  | posInt n => some n
  | negInt _ => none
  | float _ => none

def asF64 [F64 F] : Number F → F
  | posInt n => F64.ofInt n.toNat
  | negInt n => F64.ofInt n.toInt
  | float x => x

def display [F64 F] : Number F → String
  | posInt n => toString n
  | negInt n => toString n
  | float x => F64.display x

end Number

namespace Value

def isNull : Value F → Bool
  | null => true
  | _ => false

def asArray : Value F → Option (List (Value F))
  | array values => some values
  | _ => none

def asObject : Value F → Option (List (String × Value F))
  | object fields => some fields
  | _ => none

def asStr : Value F → Option String
  | string s => some s
  | _ => none

def asNumber : Value F → Option (Number F)
  | number n => some n
  | _ => none

def asI64 (self : Value F) : Option ℤ := self.asNumber.bind Number.asI64

def asU64 (self : Value F) : Option UInt64 := self.asNumber.bind Number.asU64

def asF64 [F64 F] (self : Value F) : Option F := self.asNumber.map Number.asF64

end Value

end

end RustProfile
