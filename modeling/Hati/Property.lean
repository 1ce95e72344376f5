import Hati.Evaluator

namespace Hati

/-!
# Reading and writing properties

Plain objects, instances and the static side of classes share one protocol.  A
private property is open only to code that runs on behalf of its owner, a
readonly property is never written, a readonly function is called for its value,
and a frozen object ignores all writes.
-/

namespace Heap

/-- Code of a scope runs on behalf of an object if one of its receivers is that
object, or an instance of the class whose static side the object is. -/
def isInternal (heap : Heap) (scope : FrameRef) (object : ObjectRef) : Bool :=
  (heap.receivers scope).any fun
    | .object bound =>
      bound == object || (heap.classOf? bound).any fun cls => (heap.class cls).statics == object
    | _ => false

/-- The property under a key, unless the code of the scope may not read it. -/
def readableProperty (heap : Heap) (scope : FrameRef) (object : ObjectRef) (key : String) :
    Except Cause (Option Property) :=
  match (heap.object object).properties.get? key with
  | none => .ok none
  | some property =>
    if property.access.isPrivate && !heap.isInternal scope object then .error (.privateRead key)
    else .ok (some property)

end Heap

namespace Access

/-- What keeps others than the owner from writing. -/
def guard? (access : Access) : Option Guard :=
  if access.isPrivate then some .private
  else if access.isLocked then some .locked
  else none

end Access

/-- What a permitted write does to an object. -/
inductive WriteEffect where
  | ignored
  | added
  | replaced
deriving DecidableEq, Repr

namespace Heap

/-- What a write by the code of a scope would do.  New keys may always be added. -/
def writeEffect (heap : Heap) (scope : FrameRef) (ref : ObjectRef) (key : String) :
    Except Cause WriteEffect :=
  let object := heap.object ref
  if object.isFrozen then .ok .ignored
  else
    match object.properties.get? key with
    | none => .ok .added
    | some property =>
      if property.access.isReadonly then .error (.readonlyWritten key)
      else
        match property.access.guard? with
        | none => .ok .replaced
        | some guard =>
          if heap.isInternal scope ref then .ok .replaced else .error (.guardedWrite guard key)

end Heap

namespace Object

/-- Replace the value of a property and keep its restrictions and its place. -/
def replaceValue (object : Object) (key : String) (value : Value) : Object :=
  match object.properties.get? key with
  | some property => object.insert key { property with value }
  | none => object

end Object

namespace Run

/-- Write a property.  A key that is new becomes a public property, declared
where the write stands. -/
def writeProperty (ref : ObjectRef) (key : String) (value : Value) (scope : FrameRef)
    (span : Span) : Run Unit := do
  match ← lift span (← read fun heap => heap.writeEffect scope ref key) with
  | .ignored => pure ()
  | .added => insertProperty ref key { value, span }
  | .replaced =>
    modifyHeap fun heap => heap.modifyObject ref fun object => object.replaceValue key value

end Run

namespace Evaluator

/-- Read a property.  A key that is not there reads as null, and a readonly
function is called on behalf of the object. -/
def readProperty (ev : Evaluator) (ref : ObjectRef) (key : String) (scope : FrameRef)
    (span : Span) : Run Value := do
  match ← Run.lift span (← Run.read fun heap => heap.readableProperty scope ref key) with
  | none => pure .null
  | some property =>
    if property.isGetter then ev.call property.value (some (.object ref)) [] scope span
    else pure property.value

/-- Keys with the values read under them, in the given order. -/
def readProperties (ev : Evaluator) (ref : ObjectRef) (keys : List String) (scope : FrameRef)
    (span : Span) : Run (List (String × Value)) :=
  keys.mapM fun key => do
    let value ← ev.readProperty ref key scope span
    pure (key, value)

end Evaluator

end Hati
