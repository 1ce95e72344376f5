import Hati.Text.CharSet

namespace Hati
namespace Runs

/-!
# Runs of characters

A table that gives every code point a letter is written as its runs of equal
letters, from code point zero upwards: the letter and the length of the run, which
is left out when it is one.
-/

/-- Split the text of a table into runs, given the letter of the run being read
and the length read for it so far. -/
def readFrom : Option Char → Nat → List Char → List (Char × Nat)
  | none, _, [] => []
  | some letter, length, [] => [(letter, max length 1)]
  | none, _, c :: rest => readFrom (some c) 0 rest
  | some letter, length, c :: rest =>
    if c.isDigit then readFrom (some letter) (10 * length + (c.toNat - '0'.toNat)) rest
    else (letter, max length 1) :: readFrom (some c) 0 rest

def read (rows : List String) : List (Char × Nat) :=
  readFrom none 0 (rows.flatMap String.toList)

/-- The ranges of the runs whose value is wanted, from the given code point on. -/
def rangesFrom {α : Type} (wanted : α → Bool) : Nat → List (α × Nat) → List CharRange
  | _, [] => []
  | start, (value, length) :: rest =>
    let others := rangesFrom wanted (start + length) rest
    if wanted value then ⟨start, start + length - 1⟩ :: others else others

/-- The characters whose value is wanted. -/
def set {α : Type} (wanted : α → Bool) (runs : List (α × Nat)) : CharSet :=
  ⟨CharSet.join (rangesFrom wanted 0 runs)⟩

end Runs
end Hati
