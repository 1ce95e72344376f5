import Hati.Rendering

namespace Hati

/-!
# Conversions between values

Numbers come from numbers, booleans and texts that are numeric in their
entirety.  Every value is true or false: absence, zero, the undefined number and
everything empty are false.
-/

/-- The longest list that a write may make. -/
def maxListLength : Nat := Nat.pow 2 24

/-- The longest text that repetition may make, in bytes. -/
def maxTextLength : Nat := Nat.pow 2 28

namespace Value

def toNumber : Value → Except Cause Float
  | number x => .ok x
  | bool b => .ok (if b then 1 else 0)
  | text s =>
    match Number.ofText? s with
    | some x => .ok x
    | none => .error (.textNotNumeric s)
  | other => .error (.notNumeric other.type)

def isTrue (heap : Heap) : Value → Bool
  | null => false
  | number x => !(x == 0 || x.isNaN)
  | text s => !s.isEmpty
  | bool b => b
  | list ref => !(heap.list ref).isEmpty
  | object ref => !(heap.object ref).properties.isEmpty
  | function _ => true
  | «class» _ => true

/-- The position that a value stands for; fractions are cut off. -/
def toIndex (value : Value) : Except Cause Int := do
  let x ← value.toNumber
  if x.isNaN then .error .indexNotANumber else .ok (Number.truncate x)

end Value

/-- Bring a bound of a range into `0 … length`; negative bounds count from the end. -/
def normalizeBound (index : Int) (length : Nat) : Nat :=
  let resolved := if index < 0 then length + index else index
  (min (max resolved 0) length).toNat

end Hati
