namespace Hati

/-!
# Floating-point numbers as exact binary fractions

Every finite number is a whole number times a power of two.  Rules that must be
exact (digits, remainders, rounding to a number of places) are computed on that
form with whole numbers only.
-/

/-- The number `mantissa · 2 ^ exponent`, with its sign kept apart so that both zeros exist. -/
structure Dyadic where
  isNegative : Bool
  mantissa : Nat
  exponent : Int
deriving DecidableEq, Repr

namespace Dyadic

/-- The exact value of a finite number; infinities and the undefined number have none. -/
def ofFloat? (x : Float) : Option Dyadic :=
  let bits := x.toBits.toNat
  let isNegative := bits / Nat.pow 2 63 % 2 == 1
  let field : Nat := bits / Nat.pow 2 52 % Nat.pow 2 11
  let fraction := bits % Nat.pow 2 52
  if field == 2047 then none
  else if field == 0 then some ⟨isNegative, fraction, -1074⟩
  else some ⟨isNegative, fraction + Nat.pow 2 52, (field : Int) - 1075⟩

/-- The number with this exact value, for a value that has one; larger values
become infinite and bits below the smallest place are dropped. -/
def toFloat (x : Dyadic) : Float :=
  let sign := if x.isNegative then Nat.pow 2 63 else 0
  if x.mantissa == 0 then Float.ofBits (UInt64.ofNat sign)
  else
    let top := x.mantissa.log2
    let mantissa :=
      if top ≤ 52 then x.mantissa * Nat.pow 2 (52 - top) else x.mantissa / Nat.pow 2 (top - 52)
    let field := x.exponent + top - 52 + 1075
    let bits :=
      if field ≥ 2047 then 2047 * Nat.pow 2 52
      else if field ≥ 1 then (field.toNat - 1) * Nat.pow 2 52 + mantissa
      else mantissa / Nat.pow 2 (1 - field).toNat
    Float.ofBits (UInt64.ofNat (sign + bits))

/-- The remainder of a division that rounds its quotient toward zero; it is
always exact and has the sign of the dividend. -/
def remainder (x y : Dyadic) : Dyadic :=
  let exponent := min x.exponent y.exponent
  let dividend := x.mantissa * Nat.pow 2 (x.exponent - exponent).toNat
  let divisor := y.mantissa * Nat.pow 2 (y.exponent - exponent).toNat
  ⟨x.isNegative, dividend % divisor, exponent⟩

/-! ## Whole numbers nearby -/

/-- The number as a quotient of whole numbers, its sign aside. -/
def numerator (x : Dyadic) : Nat :=
  x.mantissa * Nat.pow 2 x.exponent.toNat

def denominator (x : Dyadic) : Nat :=
  Nat.pow 2 (-x.exponent).toNat

/-- The whole part of the number, its sign aside. -/
def whole (x : Dyadic) : Nat :=
  x.numerator / x.denominator

/-- The next whole number that is not nearer to zero, the sign aside. -/
def wholeAway (x : Dyadic) : Nat :=
  (x.numerator + x.denominator - 1) / x.denominator

/-- The nearest whole number, halves away from zero, the sign aside. -/
def wholeNearest (x : Dyadic) : Nat :=
  (2 * x.numerator + x.denominator) / (2 * x.denominator)

/-- A whole number with the sign of `x`. -/
def withWhole (x : Dyadic) (n : Nat) : Dyadic :=
  ⟨x.isNegative, n, 0⟩

/-- The whole number of a magnitude with the sign of `x`. -/
def signed (x : Dyadic) (n : Nat) : Int :=
  if x.isNegative then -(n : Int) else n

end Dyadic

namespace Number

/-- Remainder of numbers.  A finite dividend is its own remainder by an infinite
divisor, and no other division by or of an infinite number has one. -/
def remainder (x y : Float) : Float :=
  if x.isNaN || y.isNaN || x.isInf || y == 0 then 0.0 / 0.0
  else
    match Dyadic.ofFloat? x, Dyadic.ofFloat? y with
    | some a, some b => (a.remainder b).toFloat
    | _, _ => x

/-- The whole number nearest to a finite `x`, halves away from zero. -/
def roundToInt (x : Float) : Int :=
  match Dyadic.ofFloat? x with
  | some exact => exact.signed exact.wholeNearest
  | none => 0

/-- Signed words of this many bits go from minus this number up to one below it. -/
def wordBound (bits : Nat) : Int :=
  Nat.pow 2 (bits - 1)

/-- Cut the fraction off, and give numbers outside the range of signed words the
nearest end of it.  The undefined number gives zero. -/
def truncateTo (bits : Nat) (x : Float) : Int :=
  match Dyadic.ofFloat? x with
  | some exact =>
    max (-wordBound bits) (min (exact.signed exact.whole) (wordBound bits - 1))
  | none =>
    if x.isNaN then 0
    else if x > 0 then wordBound bits - 1
    else -wordBound bits

/-- The whole number of 64 bits that a number stands for. -/
def truncate (x : Float) : Int :=
  truncateTo 64 x

/-- Replace a finite number by a whole number of the same sign, so that a
negative number never becomes the positive zero. -/
def roundWith (f : Dyadic → Nat) (x : Float) : Float :=
  match Dyadic.ofFloat? x with
  | some exact => (exact.withWhole (f exact)).toFloat
  | none => x

/-- The nearest whole number, halves away from zero. -/
def round (x : Float) : Float :=
  roundWith Dyadic.wholeNearest x

/-- The greatest whole number that is not above `x`. -/
def floor (x : Float) : Float :=
  roundWith (fun exact => if exact.isNegative then exact.wholeAway else exact.whole) x

/-- The least whole number that is not below `x`. -/
def ceil (x : Float) : Float :=
  roundWith (fun exact => if exact.isNegative then exact.whole else exact.wholeAway) x

def isNegativeZero (x : Float) : Bool :=
  x.toBits == 0x8000000000000000

end Number

end Hati
