import Hati.Literal

namespace Hati

/-!
# Classes and instances

Declaring a class evaluates its static fields.  Making an instance evaluates the
fields of all its classes, from the base class down, and installs their methods
in the same order, so that the most derived method of a name wins.  Only the
class itself contributes a constructor; it runs the one of its parent when it
asks for it.
-/

namespace FieldDecl

def access (field : FieldDecl) : Access :=
  { isPrivate := field.isPrivate, isLocked := field.isLocked }

end FieldDecl

namespace MethodDecl

/-- A getter is a readonly function. -/
def access (method : MethodDecl) : Access :=
  { isPrivate := method.traits.isPrivate
    isReadonly := method.traits.isGetter
    isLocked := method.traits.isLocked }

end MethodDecl

namespace Run

/-- A scope of the class's own code: it knows the object the code runs for and
the class that the code belongs to. -/
def receiverScope (owner : ClassRef) (receiver : Value) : Run FrameRef := do
  let scope ← newScope (← read fun heap => (heap.class owner).scope)
  bind scope receiverName { value := receiver }
  bind scope ownerName { value := .class owner }
  pure scope

/-- A declared method as a function that is bound to its receiver. -/
def materialize (owner : ClassRef) (method : MethodDecl) (receiver : Value) : Run Value := do
  newFunction (.ofDecl method.function (← receiverScope owner receiver))

/-- Give an object a method that is bound to it. -/
def installMethod (owner : ClassRef) (object : ObjectRef) (method : MethodDecl) : Run Unit := do
  let value ← materialize owner method (.object object)
  insertProperty object method.name { value, access := method.access, span := method.span }

/-- The object that the code of a scope runs for. -/
def receiver (scope : FrameRef) (span : Span) : Run Value := do
  match ← read fun heap => heap.lookup? scope receiverName with
  | some binding => pure binding.value
  | none => fail .noReceiver span

/-- The parent that a class declaration names. -/
def superclass (decl : ClassDecl) (scope : FrameRef) (span : Span) : Run (Option ClassRef) := do
  match decl.superclass with
  | none => pure none
  | some name =>
    match ← lookup scope name span with
    | .class parent => pure (some parent)
    | other => fail (.notASuperclass decl.name name other.type) span

def parentOf (cls : ClassRef) (span : Span) : Run ClassRef := do
  match ← read fun heap => (heap.class cls).superclass with
  | some parent => pure parent
  | none => fail (.noSuperclass (← read fun heap => (heap.class cls).name)) span

end Run

namespace Evaluator

/-! ## Declarations -/

/-- Evaluate a field and declare it as a property of the object. -/
def initializeField (ev : Evaluator) (object : ObjectRef) (scope : FrameRef) (field : FieldDecl) :
    Run Unit := do
  let value ← match field.value with
    | some expr => ev.eval expr scope
    | none => pure .null
  Run.insertProperty object field.name { value, access := field.access, span := field.span }

/-- Declare a class.  Its name is bound before its static members are made, so
that they can refer to it. -/
def declareClass (ev : Evaluator) (decl : ClassDecl) (scope : FrameRef) (span : Span) :
    Run Unit := do
  let superclass ← Run.superclass decl scope span
  let statics ← Run.newObject {}
  let cls ← Run.newClass { name := decl.name, superclass, decl, statics, scope }
  Run.bind scope decl.name { value := .class cls, isConstant := true }
  let inner ← Run.receiverScope cls (.object statics)
  (decl.fields.filter (·.isStatic)).forM (ev.initializeField statics inner)
  (decl.methods.filter fun method => method.traits.isStatic && method.isPlain).forM
    (Run.installMethod cls statics)
  let parentName ← Run.read fun heap => superclass.map fun parent => (heap.class parent).name
  Run.note (.declaredClass decl.name parentName)

/-! ## Instances -/

/-- Evaluate the instance fields that a class declares, each in a scope of its own. -/
def initializeFields (ev : Evaluator) (object : ObjectRef) (owner : ClassRef) : Run Unit := do
  let decl ← Run.read fun heap => (heap.class owner).decl
  (decl.fields.filter fun field => !field.isStatic).forM fun field => do
    ev.initializeField object (← Run.receiverScope owner (.object object)) field

/-- Install the instance methods that a class declares. -/
def installMethods (object : ObjectRef) (owner : ClassRef) : Run Unit := do
  let decl ← Run.read fun heap => (heap.class owner).decl
  (decl.methods.filter fun method => !method.traits.isStatic && method.isPlain).forM
    (Run.installMethod owner object)

/-- A new instance with its fields and methods, before any constructor has run. -/
def instantiate (ev : Evaluator) (cls : ClassRef) : Run ObjectRef := do
  let ⟨name, _, decl, _, _⟩ ← Run.read fun heap => heap.class cls
  Run.note (.constructing name)
  let object ← Run.newObject {}
  Run.insertProperty object classLinkName
    { value := .class cls, access := { isPrivate := true }, span := decl.span }
  let baseFirst ← Run.read fun heap => (heap.lineage cls).reverse
  baseFirst.forM (ev.initializeFields object)
  baseFirst.forM (installMethods object)
  pure object

/-- Run the constructor that the class itself declares, if it declares one. -/
def runConstructor (ev : Evaluator) (cls : ClassRef) (receiver : Value) (args : List Value)
    (scope : FrameRef) (span : Span) : Run Unit := do
  match ← Run.read fun heap => (heap.class cls).decl.constructor? with
  | none => pure ()
  | some method =>
    let function ← Run.materialize cls method receiver
    let _ ← Run.constructingClass cls (ev.call function (some receiver) args scope span)

/-- Make an instance from arguments that are already evaluated. -/
def construct (ev : Evaluator) (cls : ClassRef) (args : List Value) (scope : FrameRef)
    (span : Span) : Run Value := do
  let object ← ev.instantiate cls
  ev.runConstructor cls (.object object) args scope span
  pure (.object object)

/-- Make an instance.  The arguments are evaluated once its fields and methods
are there, and only if there is a constructor to take them. -/
def constructFrom (ev : Evaluator) (cls : ClassRef) (args : List Expr) (scope : FrameRef)
    (span : Span) : Run Value := do
  let object ← ev.instantiate cls
  if (← Run.read fun heap => (heap.class cls).decl.constructor?).isSome then
    ev.runConstructor cls (.object object) (← ev.arguments scope args) scope span
  pure (.object object)

/-! ## Parents -/

/-- Run the constructor of the parent of the class under construction. -/
def superConstructor (ev : Evaluator) (args : List Expr) (scope : FrameRef) (span : Span) :
    Run Value := do
  match (← get).constructing with
  | none => Run.fail .superOutsideConstructor span
  | some cls =>
    let parent ← Run.parentOf cls span
    let receiver ← Run.receiver scope span
    let values ← ev.arguments scope args
    ev.runConstructor parent receiver values scope span
    pure .null

/-- The class that the code of a scope belongs to, or else the one under construction. -/
def owner? (scope : FrameRef) : Run (Option ClassRef) := do
  match ← Run.read fun heap => heap.lookup? scope ownerName with
  | some ⟨.class cls, _⟩ => pure (some cls)
  | _ => return (← get).constructing

/-- Call the nearest method of that name above the class that owns the code. -/
def superMethod (ev : Evaluator) (name : String) (args : List Expr) (scope : FrameRef)
    (span : Span) : Run Value := do
  match ← owner? scope with
  | none => Run.fail .superOutsideClass span
  | some owner =>
    let parent ← Run.parentOf owner span
    match ← Run.read fun heap => heap.findMethod? parent name with
    | none =>
      Run.fail (.noSuperMethod (← Run.read fun heap => (heap.class owner).name) name) span
    | some (defining, method) =>
      let receiver ← Run.receiver scope span
      let values ← ev.arguments scope args
      let function ← Run.materialize defining method receiver
      ev.call function (some receiver) values scope span

/-! ## Deletion -/

/-- Run the destructor that the object's own class declares, if any, and take
all properties away, also those of a frozen object. -/
def delete (ev : Evaluator) (target : Value) (args : List Value) (scope : FrameRef)
    (span : Span) : Run Value := do
  match target with
  | .object ref =>
    let destructor ← Run.read fun heap => do
      let cls ← heap.classOf? ref
      let method ← (heap.class cls).decl.destructor?
      pure (cls, method)
    if let some (cls, method) := destructor then
      let function ← Run.materialize cls method target
      let _ ← ev.call function (some target) args scope span
    Run.clearObject ref
    pure .null
  | other => Run.fail (.notDeletable other.type) span

end Evaluator

end Hati
