import Hati.Json.Reader

namespace Hati
namespace Json

/-!
# Reading selected fields

Of an object, a reader may want some fields only.  The values of the others are
passed over: they must be well formed, and no tree is built of them.  So they may
be nested to any depth, and an escape in one of their texts may name any code
unit, also half of a surrogate pair.
-/

/-- The rest behind a text, from behind its opening quotation mark. -/
def skipText? : List Char → Option (List Char)
  | [] => none
  | '"' :: rest => some rest
  | '\\' :: 'u' :: a :: b :: c :: d :: rest =>
    if [a, b, c, d].all fun digit => (hexValue? digit).isSome then skipText? rest else none
  | '\\' :: mark :: rest =>
    if ['"', '\\', '/', 'b', 'f', 'n', 'r', 't'].contains mark then skipText? rest else none
  | c :: rest => if c == '\\' || c.toNat < 0x20 then none else skipText? rest

/-- The rest behind a number. -/
def skipNumber? (chars : List Char) : Option (List Char) := do
  let (_, rest) := sign chars
  let (_, rest) ← wholeDigits? rest
  let (_, rest) ← fraction? rest
  let (_, rest) ← exponent? rest
  some rest

/-- The rest behind a value that is no container. -/
def skipScalar? : List Char → Option (List Char)
  | 'n' :: 'u' :: 'l' :: 'l' :: rest => some rest
  | 't' :: 'r' :: 'u' :: 'e' :: rest => some rest
  | 'f' :: 'a' :: 'l' :: 's' :: 'e' :: rest => some rest
  | '"' :: rest => skipText? rest
  | chars => skipNumber? chars

/-- A container that is still open. -/
inductive Container where
  | list
  | object
deriving DecidableEq, Repr

namespace Container

def close : Container → Char
  | list => ']'
  | object => '\x7d'

/-- The rest behind what stands before an element's value: nothing in a list, a
key and a colon in an object. -/
def skipLabel? : Container → List Char → Option (List Char)
  | list, chars => some chars
  | object, chars =>
    match skipBlank chars with
    | '"' :: rest => do
      match skipBlank (← skipText? rest) with
      | ':' :: rest => some rest
      | _ => none
    | _ => none

end Container

/-- What comes next while a value is passed over. -/
inductive Awaited where
  /-- The value itself. -/
  | value
  /-- The first element of the innermost container, or its end. -/
  | first
  /-- A comma and an element, or the end of the innermost container. -/
  | more
deriving DecidableEq, Repr

/-- Pass over a value inside the containers that are open, the innermost first.
No two rounds in a row leave the input as it is. -/
def skipFrom : Nat → Awaited → List Container → List Char → Option (List Char)
  | 0, _, _, _ => none
  | rounds + 1, .value, opened, chars =>
    match skipBlank chars with
    | '[' :: rest => skipFrom rounds .first (.list :: opened) rest
    | '\x7b' :: rest => skipFrom rounds .first (.object :: opened) rest
    | chars =>
      match skipScalar? chars with
      | some rest => skipFrom rounds .more opened rest
      | none => none
  | _ + 1, _, [], chars => some chars
  | rounds + 1, .first, inner :: outer, chars =>
    match skipBlank chars with
    | [] => none
    | c :: rest =>
      if c == inner.close then skipFrom rounds .more outer rest
      else
        match inner.skipLabel? (c :: rest) with
        | some rest => skipFrom rounds .value (inner :: outer) rest
        | none => none
  | rounds + 1, .more, inner :: outer, chars =>
    match skipBlank chars with
    | [] => none
    | c :: rest =>
      if c == inner.close then skipFrom rounds .more outer rest
      else if c == ',' then
        match inner.skipLabel? rest with
        | some rest => skipFrom rounds .value (inner :: outer) rest
        | none => none
      else none

/-- The rest behind a value with white space before it. -/
def skipValue? (chars : List Char) : Option (List Char) :=
  skipFrom (2 * chars.length + 2) .value [] chars

/-- The fields of a written object that are wanted, in order. -/
def fields? (wanted : String → Bool) (input : String) : Option (List (String × Json)) :=
  let chars := input.toList
  let rounds := chars.length + 1
  let fieldValue? (name : String) (chars : List Char) : Option (Option Json × List Char) :=
    if wanted name then
      (value? rounds (maxDepth - 1) chars).map fun (value, rest) => (some value, rest)
    else
      (skipValue? chars).map fun rest => (none, rest)
  match skipBlank chars with
  | '\x7b' :: rest => do
    let (fields, rest) ← elements? rounds (field? rounds fieldValue?) '\x7d' rest
    if (skipBlank rest).isEmpty then
      some (fields.filterMap fun (name, value?) => value?.map fun value => (name, value))
    else none
  | _ => none

end Json
end Hati
