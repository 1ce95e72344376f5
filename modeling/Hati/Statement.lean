import Hati.Destructuring
import Hati.Instance

namespace Hati

/-!
# Statements

Blocks, branches and the bodies of loops run in scopes of their own.  A statement
that does not simply proceed ends every block around it, up to the loop or the
function that it is meant for.
-/

/-! ## Loops -/

/-- What a loop does after one pass. -/
inductive Lap where
  | again
  | done (signal : Signal)

namespace Signal

/-- How a loop goes on after its body has ended: a break ends only the loop. -/
def lap : Signal → Lap
  | proceed => .again
  | continued => .again
  | broke => .done .proceed
  | returned value => .done (.returned value)

end Signal

namespace Run

/-- Repeat a pass until it says that the loop is done. -/
def repeatLaps (pass : Run Lap) : Nat → Run Signal
  | 0 => exhausted
  | fuel + 1 => do
    match ← pass with
    | .again => repeatLaps pass fuel
    | .done signal => pure signal

end Run

namespace Evaluator

/-- One pass of a counting loop. -/
def forLap (ev : Evaluator) (scope : FrameRef) (condition : Option Expr) (post : Option Stmt)
    (body : List Stmt) : Run Lap := do
  let goesOn ← match condition with
    | some condition => ev.holds condition scope
    | none => pure true
  if goesOn then
    match (← ev.scopedBlock scope body).lap with
    | .done signal => pure (.done signal)
    | .again =>
      if let some post := post then
        let _ ← ev.exec post scope
      pure .again
  else pure (.done .proceed)

def whileLap (ev : Evaluator) (scope : FrameRef) (condition : Expr) (body : List Stmt) :
    Run Lap := do
  if ← ev.holds condition scope then return (← ev.scopedBlock scope body).lap
  else pure (.done .proceed)

/-- One pass of a loop that tests last; the condition sees the scope of the body. -/
def doWhileLap (ev : Evaluator) (scope : FrameRef) (body : List Stmt) (condition : Expr) :
    Run Lap := do
  let inner ← Run.newScope scope
  match (← ev.block inner body).lap with
  | .done signal => pure (.done signal)
  | .again => if ← ev.holds condition inner then pure .again else pure (.done .proceed)

/-! ## Iteration -/

/-- The keys of an object that the code of a scope iterates over. -/
def iteratedKeys (heap : Heap) (scope : FrameRef) (ref : ObjectRef) : List String :=
  if heap.isInternal scope ref then
    (heap.object ref).properties.keys.filter fun key => key != classLinkName
  else (heap.object ref).publicKeys

/-- All pairs that an iteration goes through, found before its first pass:
elements or characters with their positions, or keys with their values. -/
def iterationPairs (ev : Evaluator) (source : Value) (scope : FrameRef) (span : Span) :
    Run (List (Value × Value)) := do
  let numbered (items : List Value) : List (Value × Value) :=
    items.zipIdx.map fun (item, position) => (item, .ofNat position)
  match source with
  | .list ref => return numbered (← Run.items ref).toList
  | .text s => pure (numbered (Value.characters s))
  | .object ref =>
    let keys ← Run.read fun heap => iteratedKeys heap scope ref
    let entries ← ev.readProperties ref keys scope span
    pure (entries.map fun (key, value) => (.text key, value))
  | other => Run.fail (.notIterable other.type) span

/-- Run the body once for each pair, each time in a new scope. -/
def iterate (ev : Evaluator) (scope : FrameRef) (first : String) (second : Option String)
    (body : List Stmt) : List (Value × Value) → Run Signal
  | [] => pure .proceed
  | (firstValue, secondValue) :: pairs => do
    let inner ← Run.newScope scope
    Run.bind inner first { value := firstValue }
    if let some second := second then Run.bind inner second { value := secondValue }
    match (← ev.block inner body).lap with
    | .again => iterate ev scope first second body pairs
    | .done signal => pure signal

/-! ## Assignment -/

/-- Store a value in a target.  The parts of the target are evaluated first. -/
def assign (ev : Evaluator) (target value : Expr) (scope : FrameRef) (span : Span) :
    Run Unit := do
  match target.node with
  | .name name =>
    let value ← ev.eval value scope
    Run.assign scope name value span
  | .index object index _ =>
    let container ← ev.eval object scope
    let position ← ev.eval index scope
    let value ← ev.eval value scope
    Run.writeIndex container position value scope span
  | .member object property _ =>
    let container ← ev.eval object scope
    let value ← ev.eval value scope
    Run.writeMember container property value (.assignedProperty property container.type) scope span
  | _ => Run.fail .assignmentTarget target.span

/-! ## Single statements -/

/-- The value of an optional expression, null if there is none. -/
def evalOption (ev : Evaluator) (scope : FrameRef) : Option Expr → Run Value
  | some expr => ev.eval expr scope
  | none => pure .null

/-- Execute a statement. -/
def statement (ev : Evaluator) (stmt : Stmt) (scope : FrameRef) : Run Signal := do
  match stmt.node with
  | .expression expr =>
    let _ ← ev.eval expr scope
    pure .proceed
  | .print values newline =>
    let texts ← values.mapM (ev.evalText scope)
    Run.write (" ".intercalate texts ++ if newline then "\n" else "") stmt.span
    pure .proceed
  | .declare target value isConstant =>
    if isConstant && value.isNone then Run.fail .constantWithoutValue stmt.span
    let value ← ev.evalOption scope value
    ev.bindPattern target value isConstant scope stmt.span
    pure .proceed
  | .assign target value =>
    ev.assign target value scope stmt.span
    pure .proceed
  | .function decl =>
    match decl.name with
    | none => Run.fail .functionWithoutName stmt.span
    | some name =>
      let function ← Run.newFunction (.ofDecl decl scope)
      Run.bind scope name { value := function, isConstant := true }
      pure .proceed
  | .class decl =>
    ev.declareClass decl scope stmt.span
    pure .proceed
  | .return value => return .returned (← ev.evalOption scope value)
  | .block body => ev.scopedBlock scope body
  | .if condition thenBranch elseBranch =>
    if ← ev.holds condition scope then ev.scopedBlock scope thenBranch
    else
      match elseBranch with
      | some body => ev.scopedBlock scope body
      | none => pure .proceed
  | .for init condition post body =>
    let inner ← Run.newScope scope
    if let some init := init then
      let _ ← ev.exec init inner
    Run.repeatLaps (ev.forLap inner condition post body) ev.fuel
  | .forIn first second iterable body =>
    let source ← ev.eval iterable scope
    let pairs ← ev.iterationPairs source scope iterable.span
    ev.iterate scope first second body pairs
  | .while condition body => Run.repeatLaps (ev.whileLap scope condition body) ev.fuel
  | .doWhile body condition => Run.repeatLaps (ev.doWhileLap scope body condition) ev.fuel
  | .break => pure .broke
  | .continue => pure .continued

end Evaluator

end Hati
