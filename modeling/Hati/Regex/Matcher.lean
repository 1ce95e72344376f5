import Std.Data.HashSet
import Hati.Decimal.Reader
import Hati.Regex.Program

namespace Hati
namespace Regex

/-!
# Searching for patterns

A search follows the preferred way through the code first and comes back to the
other choices when it fails.  No address is tried twice at the same position, so
a search ends after at most as many steps as there are such pairs.  What failed from
one start fails from a later one too, so it is not tried again either.  Of all
matches the one that starts first is taken, and of those that start there the one
that the pattern prefers.
-/

/-- Whether an assertion holds before the character at `position`. -/
def Assertion.holds (assertion : Assertion) (text : Array Char) (position : Nat) : Bool :=
  let before := if position = 0 then none else text[position - 1]?
  let after := text[position]?
  match assertion with
  | .textStart => position == 0
  | .textEnd => position == text.size
  | .lineStart => before.all (· == '\n')
  | .lineEnd => after.all (· == '\n')
  | .returnLineStart =>
    before.all fun c => c == '\n' || c == '\r' && after != some '\n'
  | .returnLineEnd =>
    after.all fun c => c == '\r' || c == '\n' && before != some '\r'
  | .word edge unicode =>
    let isWordChar := fun (c : Char) =>
      if unicode then Trait.word.contains c else c.isAlphanum || c == '_'
    let left := before.any isWordChar
    let right := after.any isWordChar
    match edge with
    | .boundary => left != right
    | .noBoundary => left == right
    | .start => !left && right
    | .end => left && !right
    | .halfStart => !left
    | .halfEnd => !right

/-- Positions noted so far, by slot. -/
abbrev Slots := List (Nat × Nat)

/-- A choice that is still open: go on at an address from a position. -/
structure Choice where
  address : Nat
  position : Nat
  slots : Slots

/-- Pairs of an address and a position. -/
abbrev Tried := Std.HashSet (Nat × Nat)

/-- Follow open choices until one leads to a match, and say what was tried. -/
def explore (regex : Regex) (text : Array Char) :
    Nat → Tried → List Choice → Option Slots × Tried
  | 0, tried, _ => (none, tried)
  | _ + 1, tried, [] => (none, tried)
  | rounds + 1, tried, ⟨address, position, slots⟩ :: choices =>
    if tried.contains (address, position) then explore regex text rounds tried choices
    else
      let tried := tried.insert (address, position)
      match regex.program[address]? with
      | none => explore regex text rounds tried choices
      | some .accept => (some slots, tried)
      | some (.char c) =>
        if text[position]? == some c then
          explore regex text rounds tried (⟨address + 1, position + 1, slots⟩ :: choices)
        else explore regex text rounds tried choices
      | some (.oneOf set) =>
        if (text[position]?).any set.contains then
          explore regex text rounds tried (⟨address + 1, position + 1, slots⟩ :: choices)
        else explore regex text rounds tried choices
      | some (.check assertion) =>
        if assertion.holds text position then
          explore regex text rounds tried (⟨address + 1, position, slots⟩ :: choices)
        else explore regex text rounds tried choices
      | some (.fork first second) =>
        explore regex text rounds tried
          (⟨first, position, slots⟩ :: ⟨second, position, slots⟩ :: choices)
      | some (.jump target) =>
        explore regex text rounds tried (⟨target, position, slots⟩ :: choices)
      | some (.save slot) =>
        explore regex text rounds tried
          (⟨address + 1, position, (slot, position) :: slots⟩ :: choices)

/-- A match with the positions of its groups. -/
structure Match where
  start : Nat
  stop : Nat
  slots : Slots

namespace Match

/-- The part of the text that a group matched, if it took part. -/
def group? (found : Match) (text : Array Char) (index : Nat) : Option (List Char) := do
  let start ← found.slots.lookup (2 * index)
  let stop ← found.slots.lookup (2 * index + 1)
  some (text.extract start stop).toList

end Match

/-- The first match that starts at `position` or behind it, `count` starts long. -/
def findFrom (regex : Regex) (text : Array Char) : Nat → Nat → Tried → Option Match
  | 0, _, _ => none
  | count + 1, position, tried =>
    let rounds := 2 * regex.program.size * (text.size + 1) + 2
    let (slots, tried) := explore regex text rounds tried [⟨0, position, []⟩]
    match slots with
    | some slots => (slots.lookup 1).map fun stop => ⟨position, stop, slots⟩
    | none => findFrom regex text count (position + 1) tried

def find? (regex : Regex) (text : Array Char) (position : Nat) : Option Match :=
  findFrom regex text (text.size + 1 - position) position {}

/-- Successive matches.  The search goes on where the last match ended; an empty
match right there is passed over in favour of one that starts later. -/
def matchesFrom (regex : Regex) (text : Array Char) : Nat → Nat → Option Nat → List Match
  | 0, _, _ => []
  | rounds + 1, position, lastEnd =>
    let found := find? regex text position
    let found :=
      match found with
      | some m =>
        if m.start == m.stop && lastEnd == some m.stop then find? regex text (position + 1)
        else found
      | none => none
    match found with
    | none => []
    | some m => m :: matchesFrom regex text rounds m.stop (some m.stop)

def allMatches (regex : Regex) (text : Array Char) : List Match :=
  matchesFrom regex text (text.size + 2) 0 none

/-- The texts of all matches. -/
def findAll (regex : Regex) (text : String) : List String :=
  let chars := text.toList.toArray
  (regex.allMatches chars).map fun m => String.ofList (chars.extract m.start m.stop).toList

/-! ## Replacement -/

/-- A piece of a replacement: text, or a reference to a group by number or name. -/
inductive Piece where
  | literal (c : Char)
  | group (name : List Char)
deriving DecidableEq

def isReferenceChar (c : Char) : Bool :=
  c.isAlphanum || c == '_'

/-- Split a replacement into pieces.  A reference is a dollar sign with a name,
which may stand in braces; two dollar signs stand for one, and any other dollar
sign for itself.  The first `skip` characters were read already. -/
def piecesFrom : Nat → List Char → List Piece
  | _, [] => []
  | skip + 1, _ :: rest => piecesFrom skip rest
  | 0, c :: rest =>
    if c != '$' then .literal c :: piecesFrom 0 rest
    else
      match rest with
      | '$' :: _ => .literal '$' :: piecesFrom 1 rest
      | '\x7b' :: inner =>
        let name := inner.takeWhile (· != '\x7d')
        if name.length < inner.length then .group name :: piecesFrom (name.length + 2) rest
        else .literal '$' :: piecesFrom 0 rest
      | _ =>
        let name := rest.takeWhile isReferenceChar
        if name.isEmpty then .literal '$' :: piecesFrom 0 rest
        else .group name :: piecesFrom name.length rest

/-- The number that a reference gives; a plus sign in front is allowed. -/
def groupNumber? (name : List Char) : Option Nat :=
  let digits :=
    match name with
    | '+' :: rest => rest
    | _ => name
  if digits.isEmpty || !digits.all Char.isDigit then none
  else some (Decimal.natOfDigits digits)

/-- What a piece stands for in a match; groups that do not exist or took no part
are empty. -/
def expand (regex : Regex) (text : Array Char) (found : Match) : Piece → List Char
  | .literal c => [c]
  | .group name =>
    let index :=
      (groupNumber? name).orElse fun _ => regex.captureNames.lookup (String.ofList name)
    ((index.bind (found.group? text)).getD [])

/-- The text from `position` on with the matches replaced. -/
def replaceMatches (regex : Regex) (text : Array Char) (pieces : List Piece) :
    Nat → List Match → List Char
  | position, [] => (text.extract position text.size).toList
  | position, found :: others =>
    (text.extract position found.start).toList ++ pieces.flatMap (expand regex text found)
      ++ replaceMatches regex text pieces found.stop others

/-- Replace every match. -/
def replaceAll (regex : Regex) (text replacement : String) : String :=
  let chars := text.toList.toArray
  String.ofList
    (replaceMatches regex chars (piecesFrom 0 replacement.toList) 0 (regex.allMatches chars))

end Regex
end Hati
