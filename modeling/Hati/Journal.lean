import Hati.Fault
import Hati.Scheduler
import Hati.Text.Quoted

namespace Hati

/-!
# The journal of a run

What an interpreter notes about its own work: calls, classes, timers and the
callbacks that failed.  An entry has a level, a message and named fields.
-/

inductive Level where
  | trace | debug | warn
deriving DecidableEq, Repr

namespace Level

def name : Level → String
  | trace => "TRACE"
  | debug => "DEBUG"
  | warn => "WARN"

end Level

namespace Job

def text : Job → String
  | immediate id => "Immediate(" ++ toString id ++ ")"
  | timerFired id => "TimerFired(" ++ toString id ++ ")"

end Job

inductive Event where
  | called (function : String) (arguments : Nat)
  | declaredClass (name : String) (superclass : Option String)
  | constructing (name : String)
  | armedTimer (id delayMillis : Nat) (repeats : Bool)
  | cancelledTimer (id : Nat)
  | callbackFailed (fault : Fault) (job : Job)
  | drained (executed : Nat)
  | exiting (code : Int)
deriving DecidableEq, Repr

namespace Event

def level : Event → Level
  | called .. => .trace
  | callbackFailed .. => .warn
  | declaredClass .. | constructing _ | armedTimer .. | cancelledTimer _ | drained _
  | exiting _ => .debug

def message : Event → String
  | called .. => "call"
  | declaredClass .. => "declared class"
  | constructing _ => "constructing instance"
  | armedTimer .. => "armed timer"
  | cancelledTimer _ => "cancelled timer"
  | callbackFailed .. => "unhandled async callback error"
  | drained _ => "event loop drained"
  | exiting _ => "swazi.exit"

/-- The named fields of an entry, as text. -/
def fields : Event → List (String × String)
  | called function arguments => [("function", function), ("args", toString arguments)]
  | declaredClass name superclass =>
    let parent :=
      match superclass with
      | some parent => "Some(" ++ Text.quoted parent ++ ")"
      | none => "None"
    [("class", name), ("superclass", parent)]
  | constructing name => [("class", name)]
  | armedTimer id delayMillis repeats =>
    [("timer", toString id), ("delay_ms", toString delayMillis),
      ("repeat", if repeats then "true" else "false")]
  | cancelledTimer id => [("timer", toString id)]
  | callbackFailed fault job => [("error", fault.summary), ("job", job.text)]
  | drained executed => [("executed", toString executed)]
  | exiting code => [("code", toString code)]

/-- The summary of a fault that the event loop caught. -/
def warning? : Event → Option String
  | callbackFailed fault _ => some fault.summary
  | _ => none

end Event

end Hati
