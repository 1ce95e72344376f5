import Hati.Coercion

namespace Hati

/-!
# Methods of numbers
-/

namespace Number

/-- The number with a fixed number of decimal places, none if left out. -/
def fixed (x : Float) (args : List Value) : Except Cause String := do
  let digits ← match args.head? with
    | none | some .null => .ok 0
    | some value => value.toNumber
  if 0 ≤ digits && digits ≤ 100 then .ok (Decimal.fixedText x digits.toUInt64.toNat)
  else .error (.fixedDigits (text digits))

end Number

namespace NumberMethod

def answer (method : NumberMethod) (x : Float) (args : List Value) : Except Cause Value :=
  match method with
  | toFixed => (Number.fixed x args).map .text
  | abs => .ok (.number x.abs)
  | round => .ok (.number (Number.round x))
  | floor => .ok (.number (Number.floor x))
  | ceil => .ok (.number (Number.ceil x))
  | toString => .ok (.text (Number.text x))

end NumberMethod

end Hati
