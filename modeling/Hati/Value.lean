import Hati.Builtin
import Hati.Dict
import Hati.Fault
import Hati.Program

namespace Hati

/-!
# Values and the cells they refer to

Null, numbers, texts and booleans are copied.  Functions, lists, objects and
classes are shared: a value holds a reference, and the cell behind it lives in
the heap.  Scopes are cells as well, because closures keep them alive.
-/

structure FrameRef where
  index : Nat
deriving DecidableEq, Repr, Inhabited

structure ListRef where
  index : Nat
deriving DecidableEq, Repr, Inhabited

structure ObjectRef where
  index : Nat
deriving DecidableEq, Repr, Inhabited

structure FunctionRef where
  index : Nat
deriving DecidableEq, Repr, Inhabited

structure ClassRef where
  index : Nat
deriving DecidableEq, Repr, Inhabited

inductive Value where
  | null
  | number (value : Float)
  | text (value : String)
  | bool (value : Bool)
  | function (ref : FunctionRef)
  | list (ref : ListRef)
  | object (ref : ObjectRef)
  | «class» (ref : ClassRef)
deriving Inhabited, Repr

namespace Value

def type : Value → ValueType
  | null => .null
  | number _ => .number
  | text _ => .text
  | bool _ => .bool
  | function _ => .function
  | list _ => .list
  | object _ => .object
  | «class» _ => .class

def isNull : Value → Bool
  | null => true
  | _ => false

def ofNat (n : Nat) : Value :=
  number (Float.ofNat n)

/-- Both values refer to the same cell; copied values never do. -/
def sameReference : Value → Value → Bool
  | function a, function b => a == b
  | list a, list b => a == b
  | object a, object b => a == b
  | «class» a, «class» b => a == b
  | _, _ => false

/-- Equality without conversions: copied values by content, shared ones by reference. -/
def strictEquals : Value → Value → Bool
  | null, null => true
  | number a, number b => a == b
  | text a, text b => a == b
  | bool a, bool b => a == b
  | a, b => a.sameReference b

end Value

/-- A variable of a scope. -/
structure Binding where
  value : Value
  isConstant : Bool := false
deriving Inhabited

/-- One scope: its own variables and the scope around it. -/
structure Frame where
  parent : Option FrameRef := none
  bindings : Dict Binding := {}
deriving Inhabited

/-- A property of an object, with the restrictions and the place it was declared with. -/
structure Property where
  value : Value
  access : Access := {}
  span : Span := {}
deriving Inhabited

namespace Property

/-- A readonly function stands for the value it computes. -/
def isGetter (property : Property) : Bool :=
  property.access.isReadonly && property.value.type == .function

end Property

/-- The properties of a plain object, an instance or the static side of a class. -/
structure Object where
  properties : Dict Property := {}
  /-- A frozen object ignores every write to its properties. -/
  isFrozen : Bool := false
deriving Inhabited

namespace Object

/-- Give the key a public, writable value, whatever stood there before. -/
def define (object : Object) (key : String) (value : Value) : Object :=
  { object with properties := object.properties.insert key { value } }

def ofPairs (pairs : List (String × Value)) : Object :=
  pairs.foldl (fun object pair => object.define pair.1 pair.2) {}

def insert (object : Object) (key : String) (property : Property) : Object :=
  { object with properties := object.properties.insert key property }

/-- The stored value, whoever asks and whether or not it is a getter. -/
def stored? (object : Object) (key : String) : Option Value :=
  (object.properties.get? key).map Property.value

/-- The keys that can be seen from outside the object. -/
def publicKeys (object : Object) : List String :=
  (object.properties.entries.filter fun entry => !entry.2.access.isPrivate).map Prod.fst

/-- Drop every property; a frozen object stays frozen. -/
def clear (object : Object) : Object :=
  { object with properties := {} }

end Object

inductive Builtin where
  | text (method : TextMethod) (receiver : String)
  | number (method : NumberMethod) (receiver : Float)
  | list (method : ListMethod) (receiver : ListRef)
  | global (function : GlobalFunction)

namespace Builtin

def name : Builtin → String
  | text method _ => method.name
  | number method _ => method.name
  | list method _ => method.name
  | global function => function.name

end Builtin

inductive FunctionBody where
  | closure (decl : FunctionDecl) (scope : FrameRef)
  | builtin (builtin : Builtin)

structure Function where
  name : String
  body : FunctionBody

namespace Function

def ofDecl (decl : FunctionDecl) (scope : FrameRef) : Function :=
  { name := decl.displayName, body := .closure decl scope }

def ofBuiltin (builtin : Builtin) : Function :=
  { name := builtin.name, body := .builtin builtin }

def isBuiltin (function : Function) : Bool :=
  match function.body with
  | .closure .. => false
  | .builtin _ => true

instance : Inhabited Function :=
  ⟨ofBuiltin (.global .typeOf)⟩

end Function

/-- A declared class.  Its declaration is kept, because every new instance is
built from it again. -/
structure Class where
  name : String
  superclass : Option ClassRef
  decl : ClassDecl
  /-- The object that holds the static members. -/
  statics : ObjectRef
  /-- The scope around the declaration. -/
  scope : FrameRef

namespace Class

instance : Inhabited Class :=
  ⟨⟨"", none, ⟨"", none, [], [], {}⟩, ⟨0⟩, ⟨0⟩⟩⟩

end Class

end Hati
