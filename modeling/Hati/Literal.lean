import Hati.Member

namespace Hati

/-!
# Argument lists and literals

A spread element stands for the elements of a list, in an argument list also for
the characters of a text, and in an object literal for all properties of an
object.
-/

namespace Evaluator

/-- The arguments that one expression of an argument list gives. -/
def argument (ev : Evaluator) (scope : FrameRef) (arg : Expr) : Run (List Value) := do
  match arg.node with
  | .spread source =>
    match ← ev.eval source scope with
    | .list ref => return (← Run.items ref).toList
    | .text s => return Value.characters s
    | other => Run.fail (.notSpreadable other.type .arguments) arg.span
  | _ => return [← ev.eval arg scope]

def arguments (ev : Evaluator) (scope : FrameRef) (args : List Expr) : Run (List Value) := do
  return (← args.mapM (ev.argument scope)).flatten

/-- The elements that one expression of a list literal gives. -/
def element (ev : Evaluator) (scope : FrameRef) (item : Expr) : Run (List Value) := do
  match item.node with
  | .spread source =>
    match ← ev.eval source scope with
    | .list ref => return (← Run.items ref).toList
    | other => Run.fail (.notSpreadable other.type .list) item.span
  | _ => return [← ev.eval item scope]

def listLiteral (ev : Evaluator) (scope : FrameRef) (items : List Expr) : Run Value := do
  let elements ← items.mapM (ev.element scope)
  Run.newList elements.flatten.toArray

/-- Pieces of text with the texts of expressions between them.  Whichever of the
two lists is longer goes on alone. -/
def template (ev : Evaluator) (scope : FrameRef) : List String → List Expr → Run String
  | [], holes => return String.join (← holes.mapM (ev.evalText scope))
  | pieces, [] => return String.join pieces
  | piece :: pieces, hole :: holes => do
    let shown ← ev.evalText scope hole
    return piece ++ shown ++ (← template ev scope pieces holes)

/-! ## Object literals -/

/-- The scope that the methods of an object literal close over: there, the
receiver is the object. -/
def methodScope (scope : FrameRef) (object : ObjectRef) : Option FrameRef → Run FrameRef
  | some methods => pure methods
  | none => do
    let methods ← Run.newScope scope
    Run.bind methods receiverName { value := .object object }
    pure methods

def propertyKey (ev : Evaluator) (scope : FrameRef) : PropertyKey → Run String
  | .named name => pure name
  | .computed key => ev.evalText scope key

/-- Add one member to the object under construction.  All methods of a literal
share one scope, which is made for the first of them and passed on. -/
def literalMember (ev : Evaluator) (scope : FrameRef) (object : ObjectRef)
    (methods : Option FrameRef) : LiteralMember → Run (Option FrameRef)
  | .spread source => do
    match ← ev.eval source scope with
    | .object other =>
      let copied ← Run.read fun heap => (heap.object other).properties.entries
      copied.forM fun (key, property) => Run.insertProperty object key property
      pure methods
    | other => Run.fail (.notSpreadable other.type .object) source.span
  | .property key value access isMethod span => do
    let key ← ev.propertyKey scope key
    match value.node, isMethod || access.isReadonly with
    | .function decl, true =>
      let inner ← methodScope scope object methods
      let function ← Run.newFunction (.ofDecl decl inner)
      Run.insertProperty object key { value := function, access, span }
      pure (some inner)
    | _, _ =>
      let value ← ev.eval value scope
      Run.insertProperty object key { value, access, span }
      pure methods

def objectLiteral (ev : Evaluator) (scope : FrameRef) (members : List LiteralMember) :
    Run Value := do
  let object ← Run.newObject {}
  let _ ← members.foldlM (ev.literalMember scope object) none
  pure (.object object)

end Evaluator

end Hati
