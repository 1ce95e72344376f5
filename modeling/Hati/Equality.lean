import Hati.Coercion

namespace Hati

/-!
# Loose equality and the default order

Loose equality compares lists by their contents, numbers with texts by value,
and values of different types by their texts.  Lists may be cyclic: a pair of
lists that is already being compared counts as equal.
-/

namespace Value

/-- A number and a text: by value if the text is numeric, else by text. -/
def numberEqualsText (x : Float) (s : String) : Bool :=
  match Number.ofText? s with
  | some parsed => parsed == x
  | none => Number.text x == s

/-- Comparison while the pairs `opened` are being compared further out, at most
`fuel` levels deep. -/
def looselyEqualsFrom (heap : Heap) : Nat → List (ListRef × ListRef) → Value → Value → Bool
  | 0, _, _, _ => true
  | fuel + 1, opened, a, b =>
    match a, b with
    | null, null => true
    | number x, number y => x == y
    | text x, text y => x == y
    | bool x, bool y => x == y
    | number x, text s => numberEqualsText x s
    | text s, number x => numberEqualsText x s
    | list x, list y =>
      if x == y || opened.contains (x, y) then true
      else
        let left := (heap.list x).toList
        let right := (heap.list y).toList
        left.length == right.length &&
          (left.zip right).all fun (l, r) =>
            looselyEqualsFrom heap fuel ((x, y) :: opened) l r
    | function x, function y => x == y
    | object x, object y => x == y
    | «class» x, «class» y => x == y
    | a, b => a.toText heap == b.toText heap

/-- Pairs that are open at once are distinct, so the number of pairs of lists
bounds how deep a comparison goes. -/
def looselyEquals (heap : Heap) (a b : Value) : Bool :=
  looselyEqualsFrom heap (heap.lists.size * heap.lists.size + 2) [] a b

/-- Numbers in their order, where an undefined number is equal to every other,
and all else by text. -/
def defaultOrder (heap : Heap) : Value → Value → Ordering
  | number x, number y => if x < y then .lt else if x > y then .gt else .eq
  | a, b => compare (a.toText heap) (b.toText heap)

end Value

end Hati
