import Hati.Library.Global
import Hati.Library.List
import Hati.Library.Number
import Hati.Parameters

namespace Hati

/-!
# Calls

A declared function runs in a new scope inside the one it was declared in, and
counts against the limit of open calls.  A built-in function runs at once; what
fails inside it without a place of its own is reported at the call.
-/

namespace Run

/-- The value of an answer; parts become a new list. -/
def ofTextAnswer : TextAnswer → Run Value
  | .value value => pure value
  | .parts parts => newList (parts.map Value.text).toArray

end Run

namespace Evaluator

def runBuiltin (ev : Evaluator) (builtin : Builtin) (args : List Value) (scope : FrameRef)
    (span : Span) : Run Value := do
  match builtin with
  | .text method s => Run.ofTextAnswer (← Run.lift span (method.answer s args))
  | .number method x => Run.lift span (method.answer x args)
  | .list method ref => ev.runListMethod method ref args scope span
  | .global function => ev.runGlobal function args scope span

/-- Run the body of a declared function in a new scope, where the receiver is
bound before the parameters are. -/
def activate (ev : Evaluator) (name : String) (decl : FunctionDecl) (closure : FrameRef)
    (receiver : Option Value) (args : List Value) (span : Span) : Run Value := do
  Run.note (.called name args.length)
  let scope ← Run.newScope closure
  if let some value := receiver then Run.bind scope receiverName { value }
  ev.bindParameters decl args scope span
  match ← ev.block scope decl.body with
  | .returned value => pure value
  | .proceed => pure .null
  | .broke | .continued => Run.fail (.strayJumpIn name) decl.span

/-- Call a value.  The scope is that of the caller; only built-in functions see it. -/
def invoke (ev : Evaluator) (callee : Value) (receiver : Option Value) (args : List Value)
    (scope : FrameRef) (span : Span) : Run Value := do
  match callee with
  | .function ref =>
    let function ← Run.read fun heap => heap.function ref
    match function.body with
    | .builtin builtin => Run.orAt span (ev.runBuiltin builtin args scope span)
    | .closure decl closure =>
      Run.deeper span (ev.activate function.name decl closure receiver args span)
  | other => Run.fail (.notCallable other.type) span

end Evaluator

end Hati
