namespace Hati
namespace Decimal

/-!
# Reading numbers

A number is an optional sign followed by a decimal or by one of the words for
the infinite and the undefined number.  A decimal has digits, a point anywhere
among, before or after them, and an optional exponent; at least one digit stands
outside the exponent.
-/

def digitValue (c : Char) : Nat :=
  c.toNat - '0'.toNat

/-- The whole number that a run of digits stands for. -/
def natOfDigits (digits : List Char) : Nat :=
  digits.foldl (fun n c => 10 * n + digitValue c) 0

/-- The number nearest to `coefficient · 10 ^ exponent`, halves to even.  An
exponent far outside the range of numbers decides the result by itself. -/
def nearest (coefficient : Nat) (exponent : Int) : Float :=
  if coefficient == 0 then 0
  else
    let magnitude := exponent + ((coefficient.log2 * 1233 / 4096 : Nat) : Int)
    if magnitude > 320 then 1.0 / 0.0
    else if magnitude < -400 then 0
    else if exponent ≥ 0 then Float.ofScientific coefficient false exponent.toNat
    else Float.ofScientific coefficient true (-exponent).toNat

/-- An exponent mark with its sign and digits; the empty text means none. -/
def exponent? : List Char → Option Int
  | [] => some 0
  | mark :: rest =>
    if mark == 'e' || mark == 'E' then
      let (isNegative, digits) :=
        match rest with
        | '-' :: digits => (true, digits)
        | '+' :: digits => (false, digits)
        | digits => (false, digits)
      if digits.isEmpty || !digits.all Char.isDigit then none
      else
        let value : Int := natOfDigits digits
        some (if isNegative then -value else value)
    else none

/-- A decimal without sign. -/
def unsigned? (chars : List Char) : Option Float :=
  let whole := chars.takeWhile Char.isDigit
  let rest := chars.dropWhile Char.isDigit
  let (fraction, rest) :=
    match rest with
    | '.' :: tail => (tail.takeWhile Char.isDigit, tail.dropWhile Char.isDigit)
    | _ => ([], rest)
  if whole.isEmpty && fraction.isEmpty then none
  else
    (exponent? rest).map fun exponent =>
      nearest (natOfDigits (whole ++ fraction)) (exponent - fraction.length)

/-- The magnitude: a decimal or a word, in either case of letters. -/
def magnitude? (chars : List Char) : Option Float :=
  match String.ofList (chars.map Char.toLower) with
  | "inf" | "infinity" => some (1.0 / 0.0)
  | "nan" => some (0.0 / 0.0)
  | _ => unsigned? chars

/-- Read a whole text as a number. -/
def read? (text : String) : Option Float :=
  match text.toList with
  | '-' :: rest => (magnitude? rest).map fun x => -x
  | '+' :: rest => magnitude? rest
  | chars => magnitude? chars

end Decimal
end Hati
