import Hati.Call
import Hati.Expression
import Hati.Statement

namespace Hati

/-!
# The interpreter

The rules of expressions, statements and calls are tied together by fuel: an
evaluator with some fuel left applies the rules with an evaluator that has one
unit less.  Fuel only bounds the depth of evaluation and the length of loops; it
is no part of the language, and running out of it is an outcome of its own.
-/

namespace Evaluator

/-- An evaluator that ends every evaluation at once. -/
def exhausted : Evaluator where
  fuel := 0
  eval _ _ := Run.exhausted
  exec _ _ := Run.exhausted
  call _ _ _ _ _ := Run.exhausted

/-- The evaluator that applies the rules `fuel` levels deep. -/
def ofFuel : Nat → Evaluator
  | 0 => exhausted
  | fuel + 1 =>
    { fuel := fuel
      eval := fun expr scope => (ofFuel fuel).expression expr scope
      exec := fun stmt scope => (ofFuel fuel).statement stmt scope
      call := fun callee receiver args scope span =>
        (ofFuel fuel).invoke callee receiver args scope span }

@[simp]
theorem fuel_ofFuel_succ (fuel : Nat) : (ofFuel (fuel + 1)).fuel = fuel := rfl

@[simp]
theorem eval_ofFuel_succ (fuel : Nat) : (ofFuel (fuel + 1)).eval = (ofFuel fuel).expression := rfl

@[simp]
theorem exec_ofFuel_succ (fuel : Nat) : (ofFuel (fuel + 1)).exec = (ofFuel fuel).statement := rfl

@[simp]
theorem call_ofFuel_succ (fuel : Nat) : (ofFuel (fuel + 1)).call = (ofFuel fuel).invoke := rfl

/-! ## Programs -/

/-- Execute the statements of a program in a scope.  The result is the value that
the program returns, or null; a jump that belongs to no loop is an error. -/
def executeIn (ev : Evaluator) (scope : FrameRef) : List Stmt → Run Value
  | [] => pure .null
  | stmt :: rest => do
    match ← ev.exec stmt scope with
    | .proceed => executeIn ev scope rest
    | .returned value => pure value
    | .broke | .continued => Run.fail .strayJump stmt.span

/-- Execute a program in the outermost scope. -/
def execute (ev : Evaluator) (program : List Stmt) : Run Value := do
  ev.executeIn (← get).globals program

/-! ## Callbacks -/

/-- Run a callback.  A fault is noted and ends only the callback. -/
def runCallback (ev : Evaluator) (job : Job) (task : Task Value) : Run Unit := do
  let globals := (← get).globals
  tryCatch (discard (ev.call task.callback none task.arguments globals .builtin)) fun
    | .fault fault => Run.note (.callbackFailed fault job)
    | halt => throw halt

/-- Run jobs until none is left; `executed` callbacks were run before. -/
def drainFrom (ev : Evaluator) : Nat → Nat → Run Unit
  | 0, _ => Run.exhausted
  | fuel + 1, executed => do
    match ← Run.schedule Scheduler.next with
    | none => Run.note (.drained executed)
    | some job =>
      match ← Run.schedule fun scheduler => scheduler.take job with
      | none => drainFrom ev fuel executed
      | some task =>
        if task.callback.isNull then drainFrom ev fuel executed
        else
          ev.runCallback job task
          drainFrom ev fuel (executed + 1)

/-- Run all queued callbacks and all timers, and what they start in turn. -/
def drain (ev : Evaluator) : Run Unit :=
  ev.drainFrom ev.fuel 0

/-- Execute a program and then its callbacks; a program that fails has none run. -/
def run (ev : Evaluator) (program : List Stmt) : Run Value := do
  let value ← ev.execute program
  ev.drain
  pure value

end Evaluator

/-! ## Starting -/

/-- More fuel than any computation can use up in practice. -/
def ampleFuel : Nat := Nat.pow 10 18

/-- The evaluator that programs run with. -/
def evaluator : Evaluator :=
  .ofFuel ampleFuel

namespace Machine

/-- A machine with nothing but an empty outermost scope. -/
def bare (settings : Settings) (outputLimit : Option Nat)
    (threads : ThreadPolicy := .lenient) : Machine :=
  { heap := { frames := #[{}] }
    globals := ⟨0⟩
    settings
    scheduler := Scheduler.new settings.slice threads
    console := { limit := outputLimit } }

/-- A machine that is ready to run programs. -/
def new (settings : Settings) (outputLimit : Option Nat)
    (threads : ThreadPolicy := .lenient) : Machine :=
  let machine := bare settings outputLimit threads
  match (Run.installGlobals machine.globals).run machine with
  | .ok _ machine => machine
  | .error _ machine => machine

/-- The same machine with nothing printed and nothing noted yet; what was
printed still counts toward the limit. -/
def forgetOutput (machine : Machine) : Machine :=
  { machine with console := { machine.console with text := "" }, journal := #[] }

end Machine

/-- Run a program with its callbacks on a new machine. -/
def runProgram (settings : Settings) (outputLimit : Option Nat) (program : List Stmt) :
    EStateM.Result Halt Machine Value :=
  (evaluator.run program).run (Machine.new settings outputLimit)

end Hati
