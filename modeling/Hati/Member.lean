import Hati.Property

namespace Hati

/-!
# Members and elements

`value.name` and `value[index]`.  Every value answers a few questions about its
type.  Objects and classes have properties, texts, numbers and lists have
built-in members, and lists and texts have elements.
-/

namespace Value

/-- The questions that every value answers about its own type. -/
def typeQuestions : List (String × ValueType) := [
  ("ninamba", .number), ("nineno", .text), ("nibool", .bool), ("niorodha", .list),
  ("nikazi", .function), ("niobject", .object), ("nimuundo", .class), ("ninull", .null)]

/-- Members that no value can redefine: its type and what type it is not. -/
def reflective? (value : Value) (name : String) : Option Value :=
  if name == "aina" then some (.text value.type.name)
  else (typeQuestions.lookup name).map fun type => .bool (value.type == type)

/-- The single characters of a text. -/
def characters (s : String) : List Value :=
  s.toList.map fun c => .text c.toString

end Value

/-- A built-in member is a value, or a function bound to the value it was read from. -/
inductive BuiltinMember where
  | value (value : Value)
  | method (builtin : Builtin)

def lengthNames : List String := ["urefu", "length"]

namespace Value

def builtinMember? (heap : Heap) (name : String) : Value → Option BuiltinMember
  | text s =>
    if lengthNames.contains name then some (.value (.ofNat s.length))
    else (TextMethod.ofName? name).map fun method => .method (.text method s)
  | number x => (NumberMethod.ofName? name).map fun method => .method (.number method x)
  | list ref =>
    if lengthNames.contains name then some (.value (.ofNat (heap.list ref).size))
    else (ListMethod.ofName? name).map fun method => .method (.list method ref)
  | _ => none

end Value

namespace BuiltinMember

/-- Each time a method is read, it becomes a new function. -/
def toValue : BuiltinMember → Run Value
  | value v => pure v
  | method builtin => Run.newFunction (.ofBuiltin builtin)

end BuiltinMember

/-- The element at a position; there is none before the start or behind the end. -/
def elementAt (items : Array Value) (position : Int) : Value :=
  if position < 0 then .null else items.getD position.toNat .null

namespace Evaluator

def readMember (ev : Evaluator) (target : Value) (name : String) (scope : FrameRef)
    (span : Span) : Run Value := do
  match target.reflective? name, ← Run.read fun heap => heap.members? target with
  | some value, _ => pure value
  | none, some ref => ev.readProperty ref name scope span
  | none, none =>
    if target.isNull then Run.fail (.propertyOfNull name) span
    else
      match ← Run.read fun heap => target.builtinMember? heap name with
      | some member => member.toValue
      | none => Run.fail (.unknownProperty name target.type) span

def readIndex (ev : Evaluator) (target index : Value) (scope : FrameRef) (span : Span) :
    Run Value := do
  match target with
  | .list ref =>
    let position ← Run.lift span index.toIndex
    Run.read fun heap => elementAt (heap.list ref) position
  | .text s =>
    let position ← Run.lift span index.toIndex
    pure (elementAt (Value.characters s).toArray position)
  | .null => Run.fail .indexedNull span
  | target =>
    match ← Run.read fun heap => heap.members? target with
    | some ref => ev.readProperty ref (← Run.text index) scope span
    | none => Run.fail (.notIndexable target.type) span

end Evaluator

/-! ## Writing -/

/-- The position that a write to a list goes to. -/
def writePosition (index : Value) : Except Cause Nat := do
  let position ← index.toIndex
  if position < 0 then .error .negativeIndex
  else if maxListLength ≤ position.toNat then .error (.indexTooLarge position maxListLength)
  else .ok position.toNat

/-- Put a value at a position; a list that is too short is filled up with nulls. -/
def placeAt (items : Array Value) (position : Nat) (value : Value) : Array Value :=
  if position < items.size then items.setIfInBounds position value
  else (items ++ Array.replicate (position - items.size) Value.null).push value

namespace Run

def writeIndex (target index value : Value) (scope : FrameRef) (span : Span) : Run Unit := do
  match target with
  | .list ref =>
    let position ← lift span (writePosition index)
    modifyHeap fun heap => heap.modifyList ref fun items => placeAt items position value
  | target =>
    match ← read fun heap => heap.members? target with
    | some ref => writeProperty ref (← text index) value scope span
    | none => fail (.assignedByIndex target.type) span

/-- Write a member of an object or of the static side of a class; other values
have none, which is reported as `refusal`. -/
def writeMember (target : Value) (name : String) (value : Value) (refusal : Cause)
    (scope : FrameRef) (span : Span) : Run Unit := do
  match ← read fun heap => heap.members? target with
  | some ref => writeProperty ref name value scope span
  | none => fail refusal span

end Run

end Hati
