import Hati.Decimal.Printer
import Hati.Json.Tree

namespace Hati
namespace Json

/-!
# Writing JSON

The compact form has no white space at all.  The pretty form puts every item on
a line of its own, indented by two spaces for each container around it.
-/

/-- Two hexadecimal digits. -/
def hexPair (n : Nat) : List Char :=
  [Nat.digitChar (n / 16), Nat.digitChar (n % 16)]

def escapedChar (c : Char) : List Char :=
  if c == '"' then ['\\', '"']
  else if c == '\\' then ['\\', '\\']
  else if c == '\n' then ['\\', 'n']
  else if c == '\r' then ['\\', 'r']
  else if c == '\t' then ['\\', 't']
  else if c == '\x08' then ['\\', 'b']
  else if c == '\x0c' then ['\\', 'f']
  else if c.toNat < 0x20 then ['\\', 'u', '0', '0'] ++ hexPair c.toNat
  else [c]

def renderText (text : String) : List Char :=
  '"' :: text.toList.flatMap escapedChar ++ ['"']

def renderInt (n : Int) : List Char :=
  match n with
  | .ofNat n => Decimal.digitsOf n
  | .negSucc n => '-' :: Decimal.digitsOf (n + 1)

/-- Plain notation for leading exponents from -5 to 15, with a fraction in any
case, and scientific notation for all others. -/
def renderDigits (digits : Decimal.Digits) : List Char :=
  let exponent := Decimal.leadingExponent digits
  if -5 ≤ exponent && exponent ≤ 15 then
    let chars := Decimal.plain digits
    if digits.exponent ≥ 0 then chars ++ ['.', '0'] else chars
  else Decimal.scientific digits

/-- The shortest digits that read back, halves to even.  Numbers that are not
finite have no notation and are written as null. -/
def renderFloat (x : Float) : List Char :=
  match Dyadic.ofFloat? x with
  | none => ['n', 'u', 'l', 'l']
  | some ⟨isNegative, mantissa, exponent⟩ =>
    let digits :=
      if mantissa == 0 then ['0', '.', '0']
      else renderDigits (Decimal.shortest .toEven mantissa exponent)
    if isNegative then '-' :: digits else digits

/-- A new line inside `depth` containers, or nothing in the compact form. -/
def gap (pretty : Bool) (depth : Nat) : List Char :=
  if pretty then '\n' :: List.replicate (2 * depth) ' ' else []

def colon (pretty : Bool) : List Char :=
  if pretty then [':', ' '] else [':']

mutual

def renderFrom (pretty : Bool) (depth : Nat) : Json → List Char
  | null => ['n', 'u', 'l', 'l']
  | bool true => ['t', 'r', 'u', 'e']
  | bool false => ['f', 'a', 'l', 's', 'e']
  | int n => renderInt n
  | float x => renderFloat x
  | text s => renderText s
  | list [] => ['[', ']']
  | list (item :: items) =>
    '[' :: gap pretty (depth + 1) ++ renderFrom pretty (depth + 1) item
      ++ renderItems pretty (depth + 1) items ++ gap pretty depth ++ [']']
  | object [] => ['\x7b', '\x7d']
  | object ((key, value) :: fields) =>
    '\x7b' :: gap pretty (depth + 1) ++ renderText key ++ colon pretty
      ++ renderFrom pretty (depth + 1) value
      ++ renderFields pretty (depth + 1) fields ++ gap pretty depth ++ ['\x7d']

/-- The items after the first, each behind a comma. -/
def renderItems (pretty : Bool) (depth : Nat) : List Json → List Char
  | [] => []
  | item :: items =>
    ',' :: gap pretty depth ++ renderFrom pretty depth item ++ renderItems pretty depth items

def renderFields (pretty : Bool) (depth : Nat) : List (String × Json) → List Char
  | [] => []
  | (key, value) :: fields =>
    ',' :: gap pretty depth ++ renderText key ++ colon pretty ++ renderFrom pretty depth value
      ++ renderFields pretty depth fields

end

def render (pretty : Bool) (json : Json) : String :=
  String.ofList (renderFrom pretty 0 json)

end Json
end Hati
