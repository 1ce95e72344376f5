import Hati.Dyadic

namespace Hati
namespace Decimal

/-!
# The fewest digits that read back

A decimal reads back as a given binary number when it lies in the interval of
reals that round to that number.  The shortest decimal is found by trying grids
of step `10 ^ k`, coarse ones first: the first grid with a point in the interval
wins, and of two such points the one nearer to the number.
-/

/-- The decimal number `coefficient · 10 ^ exponent`. -/
structure Digits where
  coefficient : Nat
  exponent : Int
deriving DecidableEq, Repr

/-- Which of two equally near neighbours is taken. -/
inductive Tie where
  | up | toEven
deriving DecidableEq, Repr

namespace Tie

/-- Whether a half between `lower` and `lower + 1` goes to the upper one. -/
def goesUp (tie : Tie) (lower : Nat) : Bool :=
  match tie with
  | .up => true
  | .toEven => lower % 2 == 1

end Tie

/-- The reals that round to a number, as fractions over one denominator.  The
ends belong to the interval when the mantissa is even. -/
structure Interval where
  low : Nat
  middle : Nat
  high : Nat
  denominator : Nat
  closed : Bool

namespace Interval

/-- Half a unit in the last place on either side; below a power of two the
spacing halves, and so does the lower part. -/
def around (mantissa : Nat) (exponent : Int) : Interval :=
  let lower := if mantissa == Nat.pow 2 52 && exponent > -1074 then 1 else 2
  let shift := exponent - 2
  let scale := Nat.pow 2 shift.toNat
  { low := (4 * mantissa - lower) * scale
    middle := 4 * mantissa * scale
    high := (4 * mantissa + 2) * scale
    denominator := Nat.pow 2 (-shift).toNat
    closed := mantissa % 2 == 0 }

/-- The point of the grid with step `10 ^ k` that lies in the interval and is
nearest to its middle. -/
def gridPoint? (interval : Interval) (tie : Tie) (k : Int) : Option Nat :=
  let zoom := Nat.pow 10 (-k).toNat
  let step := Nat.pow 10 k.toNat * interval.denominator
  let low := interval.low * zoom
  let middle := interval.middle * zoom
  let high := interval.high * zoom
  let lower := middle / step
  let lowerInside := if interval.closed then low ≤ lower * step else low < lower * step
  let upperInside :=
    if interval.closed then (lower + 1) * step ≤ high else (lower + 1) * step < high
  match decide lowerInside, decide upperInside with
  | true, true =>
    match compare (2 * middle) ((2 * lower + 1) * step) with
    | .lt => some lower
    | .gt => some (lower + 1)
    | .eq => some (if tie.goesUp lower then lower + 1 else lower)
  | true, false => some lower
  | false, true => some (lower + 1)
  | false, false => none

/-- Try grids from step `10 ^ k` downwards, `count` of them. -/
def search (interval : Interval) (tie : Tie) : Nat → Int → Digits
  | 0, k => ⟨0, k⟩
  | count + 1, k =>
    match interval.gridPoint? tie k with
    | some coefficient => ⟨coefficient, k⟩
    | none => interval.search tie count (k - 1)

end Interval

/-- The shortest decimal of a positive number.  A step of `10 ^ k` above the
number itself never hits, and seventeen digits below it always do, so a window
around a rough logarithm is enough. -/
def shortest (tie : Tie) (mantissa : Nat) (exponent : Int) : Digits :=
  let magnitude := (mantissa.log2 + exponent) * 1233 / 4096
  (Interval.around mantissa exponent).search tie 24 (magnitude + 3)

end Decimal
end Hati
