import Hati.Instance
import Hati.Operator

namespace Hati

/-!
# Expressions

Members, elements and calls form chains.  A chain breaks off at an optional link
that meets null: nothing further out is evaluated, and the whole chain is null.
-/

namespace Evaluator

/-- The value that a link goes on from; a broken chain stays broken, and an
optional link breaks it at null. -/
def linked (isOptional : Bool) : Option Value → Option Value
  | some value => if isOptional && value.isNull then none else some value
  | none => none

/-- A method call runs for the object that the method was read from. -/
def callReceiver : Value → Option Value
  | .object ref => some (.object ref)
  | _ => none

/-- Call what a callee came to, unless the call is optional and there is nothing to call. -/
def callLink (ev : Evaluator) (scope : FrameRef) (function : Value) (receiver : Option Value)
    (args : List Expr) (isOptional : Bool) (span : Span) : Run (Option Value) := do
  if isOptional && function.isNull then pure none
  else
    let values ← ev.arguments scope args
    return some (← ev.call function receiver values scope span)

/-- The value of a chain, or none if it broke off. -/
def chain (ev : Evaluator) (scope : FrameRef) : Expr → Run (Option Value)
  | ⟨.member object property isOptional, span⟩ => do
    match linked isOptional (← chain ev scope object) with
    | none => pure none
    | some target => return some (← ev.readMember target property scope span)
  | ⟨.index object index isOptional, span⟩ => do
    match linked isOptional (← chain ev scope object) with
    | none => pure none
    | some target =>
      let position ← ev.eval index scope
      return some (← ev.readIndex target position scope span)
  | ⟨.call ⟨.member object property isOptionalMember, memberSpan⟩ args isOptional, span⟩ => do
    match linked isOptionalMember (← chain ev scope object) with
    | none => pure none
    | some target =>
      let function ← ev.readMember target property scope memberSpan
      ev.callLink scope function (callReceiver target) args isOptional span
  | ⟨.call ⟨.index object index isOptionalIndex, indexSpan⟩ args isOptional, span⟩ => do
    match linked isOptionalIndex (← chain ev scope object) with
    | none => pure none
    | some target =>
      let position ← ev.eval index scope
      let function ← ev.readIndex target position scope indexSpan
      ev.callLink scope function (callReceiver target) args isOptional span
  | ⟨.call callee args isOptional, span⟩ => do
    match ← chain ev scope callee with
    | none => pure none
    | some function => ev.callLink scope function none args isOptional span
  | expr => return some (← ev.eval expr scope)

/-- Evaluate an expression. -/
def expression (ev : Evaluator) (expr : Expr) (scope : FrameRef) : Run Value := do
  match expr.node with
  | .number x => pure (.number x)
  | .text s => pure (.text s)
  | .bool b => pure (.bool b)
  | .null => pure .null
  | .template pieces holes => return .text (← ev.template scope pieces holes)
  | .list items => ev.listLiteral scope items
  | .object members => ev.objectLiteral scope members
  | .function decl => Run.newFunction (.ofDecl decl scope)
  | .name name => Run.lookup scope name expr.span
  | .receiver => Run.receiver scope expr.span
  | .unary op operand => ev.unary op operand scope
  | .binary op left right => ev.binary op left right scope expr.span
  | .update op target value => ev.update op target value scope expr.span
  | .conditional condition thenBranch elseBranch =>
    if ← ev.holds condition scope then ev.eval thenBranch scope else ev.eval elseBranch scope
  | .spread _ => Run.fail .spreadMisplaced expr.span
  | .call .. | .member .. | .index .. => return (← ev.chain scope expr).getD .null
  | .construct cls args =>
    match ← ev.eval cls scope with
    | .class ref => ev.constructFrom ref args scope expr.span
    | other => Run.fail (.notAClass other.type) cls.span
  | .superConstructor args => ev.superConstructor args scope expr.span
  | .superMethod method args => ev.superMethod method args scope expr.span
  | .delete target args =>
    let value ← ev.eval target scope
    let values ← ev.arguments scope args
    ev.delete value values scope expr.span

end Evaluator

end Hati
