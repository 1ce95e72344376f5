import Hati.Decimal.Reader

namespace Hati
namespace Decimal

/-!
# Scaled numbers

A number in decimal notation can be read by scaling: the digits that fit in 64
bits make a whole number, which is then multiplied or divided by a power of ten.
Both the power and the product are rounded, so that the result can miss the nearest
number by a little.  Up to fifteen digits and twenty-two places it is the nearest.
-/

/-- Go on with the digits of a number while it fits in 64 bits; the digits that do
not fit are left. -/
def takeDigits : Nat → List Char → Nat × List Char
  | n, [] => (n, [])
  | n, c :: rest =>
    let longer := 10 * n + digitValue c
    if longer < Nat.pow 2 64 then takeDigits longer rest else (n, c :: rest)

/-- The largest exponent of a power of ten that is a number. -/
def maxPlaces : Nat := 308

def powerOfTen (places : Nat) : Float :=
  nearest 1 places

/-- Divide by a power of ten, in several steps if it is too large for a number. -/
def lower (x : Float) (places : Nat) : Float :=
  if places ≤ maxPlaces then x / powerOfTen places
  else if x == 0 then x
  else lower (x / powerOfTen maxPlaces) (places - maxPlaces)
termination_by places
decreasing_by simp only [maxPlaces] at *; omega

/-- Multiply by a power of ten, unless the product is too large for a number. -/
def raise? (x : Float) (places : Nat) : Option Float :=
  if x == 0 then some x
  else if places ≤ maxPlaces then
    let product := x * powerOfTen places
    if product.isInf then none else some product
  else none

/-- Move the point of a whole number of 64 bits. -/
def scale? (n : Nat) (places : Int) : Option Float :=
  let x := n.toUInt64.toFloat
  if places ≥ 0 then raise? x places.toNat else some (lower x (-places).toNat)

end Decimal
end Hati
