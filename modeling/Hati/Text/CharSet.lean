namespace Hati

/-!
# Sets of characters

A set of characters is kept as the ranges of its code points.  The ranges stand
in ascending order and neither overlap nor touch, so a set has one description
and the operations walk along the ranges instead of the characters.

The code points from `0xd800` to `0xdfff` are no characters.  The neighbours of a
character are therefore not always the neighbouring numbers.
-/

/-- The characters from `first` to `last`, both included. -/
structure CharRange where
  first : Nat
  last : Nat
deriving DecidableEq, Repr

structure CharSet where
  ranges : List CharRange
deriving DecidableEq, Repr

namespace CharSet

def lastCode : Nat := 0x10ffff

/-- The next character behind a code point. -/
def next (code : Nat) : Nat :=
  if code = 0xd7ff then 0xe000 else code + 1

/-- The next character before a code point. -/
def previous (code : Nat) : Nat :=
  if code = 0xe000 then 0xd7ff else code - 1

def empty : CharSet := ⟨[]⟩

def all : CharSet := ⟨[⟨0, lastCode⟩]⟩

def range (first last : Char) : CharSet :=
  ⟨[⟨first.toNat, last.toNat⟩]⟩

def single (c : Char) : CharSet :=
  range c c

/-! ## Membership -/

/-- Whether a code point lies in one of the ranges, which are in order. -/
def holds : List CharRange → Nat → Bool
  | [], _ => false
  | range :: rest, code => range.first ≤ code && (code ≤ range.last || holds rest code)

def contains (set : CharSet) (c : Char) : Bool :=
  holds set.ranges c.toNat

/-- The only character of the set, if it has just one. -/
def only? (set : CharSet) : Option Char :=
  match set.ranges with
  | [range] => if range.first = range.last then some (Char.ofNat range.first) else none
  | _ => none

/-- Whether all members are ASCII characters. -/
def isAscii (set : CharSet) : Bool :=
  set.ranges.all fun range => range.last < 0x80

/-! ## Operations -/

/-- Join ranges, in order of their first characters, that overlap or touch. -/
def joinFrom (current : CharRange) : List CharRange → List CharRange
  | [] => [current]
  | range :: rest =>
    if range.first ≤ current.last + 1 then
      joinFrom ⟨current.first, max current.last range.last⟩ rest
    else current :: joinFrom range rest

def join : List CharRange → List CharRange
  | [] => []
  | range :: rest => joinFrom range rest

def startsNoLater (a b : CharRange) : Bool :=
  a.first < b.first || a.first == b.first && a.last ≤ b.last

def ofRanges (ranges : List CharRange) : CharSet :=
  ⟨join (ranges.mergeSort startsNoLater)⟩

def ofChars (chars : List Char) : CharSet :=
  ofRanges (chars.map fun c => ⟨c.toNat, c.toNat⟩)

def union (a b : CharSet) : CharSet :=
  ⟨join (a.ranges.merge b.ranges startsNoLater)⟩

def unions (sets : List CharSet) : CharSet :=
  ofRanges (sets.flatMap CharSet.ranges)

/-- The characters between two neighbouring ranges.  Ranges that are divided only
by code points that are no characters leave nothing between them; the gap is then
made of their two facing ends. -/
def gap (before after : CharRange) : CharRange :=
  let first := next before.last
  let last := previous after.first
  ⟨min first last, max first last⟩

def gapsBehind : CharRange → List CharRange → List CharRange
  | before, [] => if before.last < lastCode then [⟨next before.last, lastCode⟩] else []
  | before, range :: rest => gap before range :: gapsBehind range rest

def complement (set : CharSet) : CharSet :=
  match set.ranges with
  | [] => all
  | range :: rest =>
    let front := if 0 < range.first then [⟨0, previous range.first⟩] else []
    ⟨front ++ gapsBehind range rest⟩

def meet : List CharRange → List CharRange → List CharRange
  | a :: as, b :: bs =>
    let rest := if a.last < b.last then meet as (b :: bs) else meet (a :: as) bs
    let common : CharRange := ⟨max a.first b.first, min a.last b.last⟩
    if common.first ≤ common.last then common :: rest else rest
  | _, _ => []
termination_by as bs => as.length + bs.length

def intersection (a b : CharSet) : CharSet :=
  ⟨meet a.ranges b.ranges⟩

def subtract : List CharRange → List CharRange → List CharRange
  | [], _ => []
  | as, [] => as
  | a :: as, b :: bs =>
    if b.last < a.first then subtract (a :: as) bs
    else if a.last < b.first then a :: subtract as (b :: bs)
    else
      let front := if a.first < b.first then [⟨a.first, previous b.first⟩] else []
      if b.last < a.last then front ++ subtract (⟨next b.last, a.last⟩ :: as) bs
      else front ++ subtract as (b :: bs)
termination_by as bs => as.length + bs.length

def difference (a b : CharSet) : CharSet :=
  ⟨subtract a.ranges b.ranges⟩

def symmetricDifference (a b : CharSet) : CharSet :=
  (a.union b).difference (a.intersection b)

/-! ## Written ranges -/

def hexDigit (c : Char) : Nat :=
  if c.isDigit then c.toNat - '0'.toNat else c.toNat - 'a'.toNat + 10

/-- The ranges of a row such as `41-5a 61-7a aa`: the first code of the range that
is being read, if it is known already, and the number read so far. -/
def readRow : Option Nat → Nat → List Char → List CharRange
  | first, code, [] => [⟨first.getD code, code⟩]
  | first, code, c :: rest =>
    if c == ' ' then ⟨first.getD code, code⟩ :: readRow none 0 rest
    else if c == '-' then readRow (some code) 0 rest
    else readRow first (16 * code + hexDigit c) rest

/-- The set whose ranges are written in rows, in ascending order. -/
def ofRows (rows : List String) : CharSet :=
  ⟨join (rows.flatMap fun row => readRow none 0 row.toList)⟩

/-! ## Rules -/

@[simp] theorem contains_empty (c : Char) : empty.contains c = false := rfl

@[simp] theorem contains_range (first last c : Char) :
    (range first last).contains c =
      (decide (first.toNat ≤ c.toNat) && decide (c.toNat ≤ last.toNat)) := by
  simp [contains, range, holds]

@[simp] theorem contains_single (c d : Char) : (single c).contains d = decide (d = c) := by
  rw [single, contains_range]
  by_cases h : d = c
  · subst h; simp
  · have : d.toNat ≠ c.toNat := fun e => h (Char.toNat_inj.mp e)
    simp [h]
    omega

@[simp] theorem complement_empty : complement empty = all := rfl

end CharSet

end Hati
