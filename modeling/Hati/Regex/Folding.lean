import Hati.Text.Age
import Hati.Text.Case

namespace Hati
namespace Regex

/-!
# Comparison without case

Two characters are equal but for their case if they belong to one family: a small
letter with its capital, or a few letters with variants of each other.  Characters
of the latest edition are in no family.
-/

abbrev Family := List Char

/-- The families that are not just a capital with its small letter. -/
def largeFamilies : List Family :=
  Text.caseFamilies.map String.toList

/-- The capitals with their small letters, as far as they are in no other family. -/
def pairs : List Family :=
  let special := CharSet.ofChars largeFamilies.flatten
  (Text.lowerRuns.flatMap fun run =>
    run.chars.map fun c => [c, Char.ofNat (c.toNat + run.offset).toNat]).filter fun family =>
      !family.any special.contains

def families : List Family :=
  (largeFamilies ++ pairs).filter fun family => !family.any Age.recent.contains

/-- The characters that equal a given one but for their case. -/
def variants (c : Char) : Family :=
  (families.find? fun family => family.contains c).getD [c]

/-- The characters that equal a member of the set but for their case. -/
def fold (set : CharSet) : CharSet :=
  let touched := families.filter fun family => family.any set.contains
  set.union (.ofChars touched.flatten)

/-- As above, for letters of ASCII only. -/
def foldAscii (set : CharSet) : CharSet :=
  let letters := "abcdefghijklmnopqrstuvwxyz".toList
  let touched := letters.filter fun c => set.contains c || set.contains c.toUpper
  set.union (.ofChars (touched.flatMap fun c => [c, c.toUpper]))

end Regex
end Hati
