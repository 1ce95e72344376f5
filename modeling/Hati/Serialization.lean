import Hati.Json.Tree
import Hati.Rendering

namespace Hati

/-!
# Values as JSON trees

Objects give the properties that everyone may see, except functions.  Numbers
that are not finite become null.  A container that contains itself has no tree,
and neither has a function or a class that stands by itself or in a list.
-/

namespace Value

/-- Whole numbers that are exact are written without a fraction. -/
def numberToJson (x : Float) : Json :=
  if x.isNaN || x.isInf then .null
  else if x.abs < 9.0e15 && Float.ofInt (Number.truncate x) == x then .int (Number.truncate x)
  else .float x

/-- The tree of a value inside `opened` containers.  A walk of more levels than
there are containers has met one of them twice. -/
def toJsonFrom (heap : Heap) : Nat → List Container → Value → Except Cause Json
  | 0, _, _ => .error .cyclicStructure
  | fuel + 1, opened, value =>
    match value with
    | null => .ok .null
    | bool b => .ok (.bool b)
    | text s => .ok (.text s)
    | number x => .ok (numberToJson x)
    | list ref =>
      if opened.contains (.list ref) then .error .cyclicStructure
      else do
        let items ← (heap.list ref).toList.mapM (toJsonFrom heap fuel (.list ref :: opened))
        .ok (.list items)
    | object ref =>
      if opened.contains (.object ref) then .error .cyclicStructure
      else do
        let shown := (heap.object ref).visible.filter fun (_, property) =>
          property.value.type != .function
        let fields ← shown.mapM fun (key, property) => do
          let field ← toJsonFrom heap fuel (.object ref :: opened) property.value
          .ok (key, field)
        .ok (.object fields)
    | other => .error (.notSerializable other.type)

def toJson (heap : Heap) (value : Value) : Except Cause Json :=
  toJsonFrom heap (heap.containerCount + 2) [] value

end Value

namespace Heap

mutual

/-- Build the value of a tree from fresh lists and objects. -/
def ofJson (heap : Heap) : Json → Value × Heap
  | .null => (.null, heap)
  | .bool b => (.bool b, heap)
  | .int n => (.number (Float.ofInt n), heap)
  | .float x => (.number x, heap)
  | .text s => (.text s, heap)
  | .list items =>
    let (values, heap) := ofJsonItems heap items
    let (ref, heap) := heap.allocList values.toArray
    (.list ref, heap)
  | .object fields =>
    let (pairs, heap) := ofJsonFields heap fields
    let (ref, heap) := heap.allocObject (Object.ofPairs pairs)
    (.object ref, heap)

def ofJsonItems (heap : Heap) : List Json → List Value × Heap
  | [] => ([], heap)
  | item :: items =>
    let (value, heap) := ofJson heap item
    let (values, heap) := ofJsonItems heap items
    (value :: values, heap)

def ofJsonFields (heap : Heap) : List (String × Json) → List (String × Value) × Heap
  | [] => ([], heap)
  | (key, field) :: fields =>
    let (value, heap) := ofJson heap field
    let (pairs, heap) := ofJsonFields heap fields
    ((key, value) :: pairs, heap)

end

end Heap

end Hati
