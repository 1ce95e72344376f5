import Hati.Heap

namespace Hati

/-!
# Classes and their ancestors

A class knows its parent; following the parents leads to a base class.  An
instance knows its class by a property that is hidden from everyone.
-/

/-- The property that links an instance to its class. -/
def classLinkName : String := "__class__"

namespace Heap

/-- The class and its ancestors, at most `count` of them. -/
def ancestorsFrom (heap : Heap) : Nat → ClassRef → List ClassRef
  | 0, _ => []
  | count + 1, ref =>
    ref :: match (heap.class ref).superclass with
      | none => []
      | some parent => heap.ancestorsFrom count parent

/-- The class itself, then its parent, and so on to the base class.  A class is
allocated after its parent, so its own position bounds the length. -/
def lineage (heap : Heap) (ref : ClassRef) : List ClassRef :=
  heap.ancestorsFrom (ref.index + 1) ref

/-- The nearest declaration of a plain instance method, with the class that makes it. -/
def findMethod? (heap : Heap) (ref : ClassRef) (name : String) : Option (ClassRef × MethodDecl) :=
  (heap.lineage ref).findSome? fun cls =>
    ((heap.class cls).decl.method? name false).map fun method => (cls, method)

/-- The class that an object is linked to. -/
def classOf? (heap : Heap) (ref : ObjectRef) : Option ClassRef :=
  match (heap.object ref).stored? classLinkName with
  | some (.class cls) => some cls
  | _ => none

/-- The object whose properties stand for the members of a value. -/
def members? (heap : Heap) : Value → Option ObjectRef
  | .object ref => some ref
  | .class ref => some (heap.class ref).statics
  | _ => none

end Heap

namespace Object

/-- The properties that rendering shows: neither private ones nor the link to the class. -/
def visible (object : Object) : List (String × Property) :=
  object.properties.entries.filter fun (key, property) =>
    !property.access.isPrivate && key != classLinkName

end Object

end Hati
