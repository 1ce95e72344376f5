import Hati.Decimal.Shortest

namespace Hati
namespace Decimal

/-!
# Writing numbers

Plain notation never uses an exponent.  Scientific notation has one digit before
the point and a signed exponent without padding.
-/

def digitsOf (n : Nat) : List Char :=
  Nat.toDigits 10 n

def zeros (count : Nat) : List Char :=
  List.replicate count '0'

/-- The digits with the point in its place and zeros filled in up to it. -/
def plain (digits : Digits) : List Char :=
  let all := digitsOf digits.coefficient
  if digits.exponent ≥ 0 then all ++ zeros digits.exponent.toNat
  else
    let places := (-digits.exponent).toNat
    let padded := zeros (places + 1 - all.length) ++ all
    let whole := padded.length - places
    padded.take whole ++ '.' :: padded.drop whole

/-- The exponent that the number has with one digit before the point. -/
def leadingExponent (digits : Digits) : Int :=
  digits.exponent + (digitsOf digits.coefficient).length - 1

def scientific (digits : Digits) : List Char :=
  let exponent := leadingExponent digits
  let mark := (if exponent < 0 then ['e', '-'] else ['e', '+']) ++ digitsOf exponent.natAbs
  match digitsOf digits.coefficient with
  | [] => mark
  | [digit] => digit :: mark
  | digit :: rest => digit :: '.' :: rest ++ mark

private def signed (isNegative : Bool) (chars : List Char) : String :=
  String.ofList (if isNegative then '-' :: chars else chars)

/-- The fewest digits that read back, in plain notation, with the sign of zero. -/
def shortestText (x : Float) : String :=
  match Dyadic.ofFloat? x with
  | none => if x.isNaN then "NaN" else if x > 0 then "inf" else "-inf"
  | some ⟨isNegative, 0, _⟩ => if isNegative then "-0" else "0"
  | some ⟨isNegative, mantissa, exponent⟩ =>
    signed isNegative (plain (shortest .up mantissa exponent))

/-- `numerator / denominator` rounded to a whole number, halves to the even neighbour. -/
def roundHalfEven (numerator denominator : Nat) : Nat :=
  let lower := numerator / denominator
  match compare (2 * (numerator % denominator)) denominator with
  | .lt => lower
  | .gt => lower + 1
  | .eq => if Tie.toEven.goesUp lower then lower + 1 else lower

/-- A fixed number of decimal places, rounded from the exact value. -/
def fixedText (x : Float) (places : Nat) : String :=
  match Dyadic.ofFloat? x with
  | none => if x.isNaN then "NaN" else if x > 0 then "inf" else "-inf"
  | some exact =>
    let coefficient := roundHalfEven (exact.numerator * Nat.pow 10 places) exact.denominator
    signed exact.isNegative (plain ⟨coefficient, -places⟩)

end Decimal
end Hati
