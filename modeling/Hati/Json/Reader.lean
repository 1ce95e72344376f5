import Hati.Decimal.Scaling
import Hati.Dict
import Hati.Json.Tree

namespace Hati
namespace Json

/-!
# Reading JSON

A strict reader: one value, with white space around it and nothing else.  At
most 127 containers may be open at once.  The tree as it was written keeps fields
that occur again; settling it gives such a field its first place and its last
value.
-/

def isBlank (c : Char) : Bool :=
  c == ' ' || c == '\n' || c == '\r' || c == '\t'

def skipBlank (chars : List Char) : List Char :=
  chars.dropWhile isBlank

/-! ## Texts -/

def hexValue? (c : Char) : Option Nat :=
  if '0' ≤ c ∧ c ≤ '9' then some (c.toNat - '0'.toNat)
  else if 'a' ≤ c ∧ c ≤ 'f' then some (c.toNat - 'a'.toNat + 10)
  else if 'A' ≤ c ∧ c ≤ 'F' then some (c.toNat - 'A'.toNat + 10)
  else none

/-- A code unit written with four hexadecimal digits. -/
def unit? : List Char → Option (Nat × List Char)
  | a :: b :: c :: d :: rest => do
    let a ← hexValue? a
    let b ← hexValue? b
    let c ← hexValue? c
    let d ← hexValue? d
    some (((a * 16 + b) * 16 + c) * 16 + d, rest)
  | _ => none

/-- The rest of an escape that names a code unit.  A high surrogate needs a low
one right behind it, and a low one never stands alone. -/
def codeEscape? (chars : List Char) : Option (Char × List Char) := do
  let (high, rest) ← unit? chars
  if 0xd800 ≤ high && high < 0xdc00 then
    match rest with
    | '\\' :: 'u' :: rest => do
      let (low, rest) ← unit? rest
      if 0xdc00 ≤ low && low < 0xe000 then
        some (Char.ofNat (0x10000 + (high - 0xd800) * 0x400 + (low - 0xdc00)), rest)
      else none
    | _ => none
  else if 0xdc00 ≤ high && high < 0xe000 then none
  else some (Char.ofNat high, rest)

/-- The character that an escape stands for, from behind the backslash. -/
def escape? : List Char → Option (Char × List Char)
  | '"' :: rest => some ('"', rest)
  | '\\' :: rest => some ('\\', rest)
  | '/' :: rest => some ('/', rest)
  | 'b' :: rest => some ('\x08', rest)
  | 'f' :: rest => some ('\x0c', rest)
  | 'n' :: rest => some ('\n', rest)
  | 'r' :: rest => some ('\r', rest)
  | 't' :: rest => some ('\t', rest)
  | 'u' :: rest => codeEscape? rest
  | _ => none

/-- The characters of a text up to its closing quotation mark, in at most as many
rounds as given.  Every round consumes a character. -/
def textFrom : Nat → List Char → Option (List Char × List Char)
  | 0, _ => none
  | _ + 1, [] => none
  | rounds + 1, c :: rest =>
    if c == '"' then some ([], rest)
    else if c == '\\' then do
      let (char, rest) ← escape? rest
      let (chars, rest) ← textFrom rounds rest
      some (char :: chars, rest)
    else if c.toNat < 0x20 then none
    else do
      let (chars, rest) ← textFrom rounds rest
      some (c :: chars, rest)

/-- A text from behind its opening quotation mark. -/
def text? (rounds : Nat) (chars : List Char) : Option (String × List Char) :=
  (textFrom rounds chars).map fun (chars, rest) => (String.ofList chars, rest)

/-! ## Numbers -/

/-- Whether a minus sign stands first, and what follows it. -/
def sign : List Char → Bool × List Char
  | '-' :: rest => (true, rest)
  | chars => (false, chars)

/-- The digits of a whole part: a zero alone, or digits that do not start with one. -/
def wholeDigits? (chars : List Char) : Option (List Char × List Char) :=
  match chars with
  | '0' :: rest =>
    match rest with
    | c :: _ => if c.isDigit then none else some (['0'], rest)
    | [] => some (['0'], rest)
  | _ =>
    let digits := chars.takeWhile Char.isDigit
    if digits.isEmpty then none else some (digits, chars.dropWhile Char.isDigit)

/-- A fraction, which may be missing. -/
def fraction? (chars : List Char) : Option (Option (List Char) × List Char) :=
  match chars with
  | '.' :: rest =>
    let digits := rest.takeWhile Char.isDigit
    if digits.isEmpty then none else some (some digits, rest.dropWhile Char.isDigit)
  | _ => some (none, chars)

/-- An exponent, which may be missing. -/
def exponent? (chars : List Char) : Option (Option Int × List Char) :=
  match chars with
  | mark :: rest =>
    if mark == 'e' || mark == 'E' then
      let (isNegative, rest) :=
        match rest with
        | '-' :: rest => (true, rest)
        | '+' :: rest => (false, rest)
        | _ => (false, rest)
      let digits := rest.takeWhile Char.isDigit
      if digits.isEmpty then none
      else
        let value : Int := Decimal.natOfDigits digits
        some (some (if isNegative then -value else value), rest.dropWhile Char.isDigit)
    else some (none, chars)
  | [] => some (none, chars)

/-- The number that its parts stand for, unless it is too large.  Whole numbers of up
to 64 bits stay exact, and a zero with a minus sign is no whole number. -/
def numberOfParts? (isNegative : Bool) (whole : List Char) (fraction : Option (List Char))
    (exponent : Option Int) : Option Json :=
  let (coefficient, left) := Decimal.takeDigits 0 whole
  if fraction.isNone && exponent.isNone && left.isEmpty
      && !(isNegative && (coefficient == 0 || coefficient > Nat.pow 2 63)) then
    some (int (if isNegative then -(coefficient : Int) else coefficient))
  else
    let decimals := fraction.getD []
    let (coefficient, ignored) := Decimal.takeDigits coefficient decimals
    let places := exponent.getD 0 + left.length + ignored.length - decimals.length
    (Decimal.scale? coefficient places).map fun x => float (if isNegative then -x else x)

def number? (chars : List Char) : Option (Json × List Char) := do
  let (isNegative, rest) := sign chars
  let (whole, rest) ← wholeDigits? rest
  let (fraction, rest) ← fraction? rest
  let (exponent, rest) ← exponent? rest
  let number ← numberOfParts? isNegative whole fraction exponent
  some (number, rest)

/-! ## Values -/

/-- A value that is no container. -/
def scalar? (rounds : Nat) : List Char → Option (Json × List Char)
  | 'n' :: 'u' :: 'l' :: 'l' :: rest => some (null, rest)
  | 't' :: 'r' :: 'u' :: 'e' :: rest => some (bool true, rest)
  | 'f' :: 'a' :: 'l' :: 's' :: 'e' :: rest => some (bool false, rest)
  | '"' :: rest => (text? rounds rest).map fun (value, rest) => (text value, rest)
  | chars => number? chars

/-- One or more elements with commas between them, up to the closing bracket. -/
def elementsFrom {α : Type} (element? : List Char → Option (α × List Char)) (close : Char) :
    Nat → List Char → Option (List α × List Char)
  | 0, _ => none
  | rounds + 1, chars => do
    let (element, rest) ← element? chars
    match skipBlank rest with
    | [] => none
    | c :: rest =>
      if c == ',' then do
        let (elements, rest) ← elementsFrom element? close rounds rest
        some (element :: elements, rest)
      else if c == close then some ([element], rest)
      else none

/-- Any number of elements, from behind the opening bracket. -/
def elements? {α : Type} (rounds : Nat) (element? : List Char → Option (α × List Char))
    (close : Char) (chars : List Char) : Option (List α × List Char) :=
  match skipBlank chars with
  | [] => none
  | c :: rest =>
    if c == close then some ([], rest) else elementsFrom element? close rounds (c :: rest)

/-- A key, a colon and a value, which the key may decide how to read. -/
def field? {α : Type} (rounds : Nat) (value? : String → List Char → Option (α × List Char))
    (chars : List Char) : Option ((String × α) × List Char) :=
  match skipBlank chars with
  | '"' :: rest => do
    let (key, rest) ← text? rounds rest
    match skipBlank rest with
    | ':' :: rest => do
      let (value, rest) ← value? key rest
      some ((key, value), rest)
    | _ => none
  | _ => none

/-- A value with white space before it, inside which `depth` containers may be
open.  Texts have at most `rounds` characters and containers as many elements;
the length of the input is always enough. -/
def value? (rounds : Nat) : Nat → List Char → Option (Json × List Char)
  | 0, chars => scalar? rounds (skipBlank chars)
  | depth + 1, chars =>
    match skipBlank chars with
    | '[' :: rest =>
      (elements? rounds (value? rounds depth) ']' rest).map fun (items, rest) =>
        (list items, rest)
    | '\x7b' :: rest =>
      (elements? rounds (field? rounds fun _ => value? rounds depth) '\x7d' rest).map
        fun (fields, rest) => (object fields, rest)
    | chars => scalar? rounds chars

/-- The tree of a whole text, as it was written, with at most `depth` containers
open at once. -/
def parse? (depth : Nat) (input : String) : Option Json := do
  let chars := input.toList
  let (value, rest) ← value? (chars.length + 1) depth chars
  if (skipBlank rest).isEmpty then some value else none

/-- How many containers may be open at once. -/
def maxDepth : Nat := 127

def written? (input : String) : Option Json :=
  parse? maxDepth input

mutual

/-- Merge fields of one name. -/
def settle : Json → Json
  | null => null
  | bool b => bool b
  | int n => int n
  | float x => float x
  | text s => text s
  | list items => list (settleItems items)
  | object fields => object (Dict.ofList (settleFields fields)).entries

def settleItems : List Json → List Json
  | [] => []
  | item :: items => settle item :: settleItems items

def settleFields : List (String × Json) → List (String × Json)
  | [] => []
  | (key, value) :: fields => (key, settle value) :: settleFields fields

end

/-- Read a whole text. -/
def read? (input : String) : Option Json :=
  (written? input).map settle

end Json
end Hati
