import Hati.Machine

namespace Hati

/-!
# What evaluation is made of

The rules of the language refer to one another: an expression may hold a call,
a call runs statements, and statements hold expressions.  Each group of rules is
written against an `Evaluator`, which stands for all the others; the interpreter
then ties the groups together, spending one unit of fuel each time a rule asks
for another evaluation.

An invariant of evaluation can therefore be shown for one group of rules at a
time, from the assumption that the evaluator it is given keeps the invariant.
-/

/-- How a statement ends when it does not fail. -/
inductive Signal where
  | proceed
  | returned (value : Value)
  | broke
  | continued
deriving Inhabited

/-- The evaluations that a rule may ask for. -/
structure Evaluator where
  /-- How many laps a loop may take. -/
  fuel : Nat
  eval : Expr → FrameRef → Run Value
  exec : Stmt → FrameRef → Run Signal
  /-- Call a value, perhaps on behalf of a receiver.  The scope is the caller's,
  the place is that of the call. -/
  call : Value → Option Value → List Value → FrameRef → Span → Run Value

namespace Evaluator

/-- Run statements in order, up to the first one that does not simply proceed. -/
def block (ev : Evaluator) (scope : FrameRef) : List Stmt → Run Signal
  | [] => pure .proceed
  | stmt :: rest => do
    match ← ev.exec stmt scope with
    | .proceed => block ev scope rest
    | signal => pure signal

/-- Run statements in a new scope of their own. -/
def scopedBlock (ev : Evaluator) (scope : FrameRef) (body : List Stmt) : Run Signal := do
  ev.block (← Run.newScope scope) body

/-- The text of an expression's value, taken as soon as it is evaluated. -/
def evalText (ev : Evaluator) (scope : FrameRef) (expr : Expr) : Run String := do
  Run.text (← ev.eval expr scope)

def holds (ev : Evaluator) (condition : Expr) (scope : FrameRef) : Run Bool := do
  Run.isTrue (← ev.eval condition scope)

end Evaluator

end Hati
