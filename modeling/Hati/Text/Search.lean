namespace Hati
namespace Text

/-!
# Finding, splitting and replacing

Occurrences of one text in another, on the level of characters.  Occurrences are
taken from the left and do not overlap: after one, the search goes on behind it.
-/

/-- How many characters stand before the first occurrence. -/
def position? (needle : List Char) : List Char → Option Nat
  | [] => if needle.isEmpty then some 0 else none
  | c :: rest =>
    if needle.isPrefixOf (c :: rest) then some 0 else (position? needle rest).map (· + 1)

def contains (needle : List Char) : List Char → Bool
  | [] => needle.isEmpty
  | c :: rest => needle.isPrefixOf (c :: rest) || contains needle rest

private def consToFirst (c : Char) : List (List Char) → List (List Char)
  | [] => [[c]]
  | piece :: pieces => (c :: piece) :: pieces

/-- The pieces between the occurrences of a separator that is not empty; the
first `skip` characters belong to an occurrence already found. -/
def piecesFrom (separator : List Char) : Nat → List Char → List (List Char)
  | _, [] => [[]]
  | skip + 1, _ :: rest => piecesFrom separator skip rest
  | 0, c :: rest =>
    if separator.isPrefixOf (c :: rest) then
      [] :: piecesFrom separator (separator.length - 1) rest
    else
      consToFirst c (piecesFrom separator 0 rest)

/-- The pieces between the occurrences of the separator; an empty separator
gives the single characters. -/
def split (separator chars : List Char) : List (List Char) :=
  if separator.isEmpty then chars.map fun c => [c] else piecesFrom separator 0 chars

/-- Replace the occurrences of a text that is not empty; the first `skip`
characters belong to an occurrence already replaced. -/
def replaceFrom (find replacement : List Char) : Nat → List Char → List Char
  | _, [] => []
  | skip + 1, _ :: rest => replaceFrom find replacement skip rest
  | 0, c :: rest =>
    if find.isPrefixOf (c :: rest) then
      replacement ++ replaceFrom find replacement (find.length - 1) rest
    else
      c :: replaceFrom find replacement 0 rest

/-- Replace every occurrence.  The empty text occurs before every character and
at the end. -/
def replace (find replacement chars : List Char) : List Char :=
  if find.isEmpty then replacement ++ chars.flatMap fun c => c :: replacement
  else replaceFrom find replacement 0 chars

end Text
end Hati
