import Hati.Json.Printer
import Hati.Json.Reader
import Hati.Library.Timers
import Hati.Property
import Hati.Serialization

namespace Hati

/-!
# Global functions

The functions and objects that every program finds in its outermost scope.
-/

namespace Run

/-! ## Objects -/

/-- The object that a function on objects works on; a class stands for its static side. -/
def objectArgument (function : GlobalFunction) (args : List Value) (span : Span) :
    Run ObjectRef := do
  let first := args.head?
  match ← read fun heap => first.bind heap.members? with
  | some ref => pure ref
  | none => fail (.objectExpected function.name (first.map Value.type)) span

end Run

namespace Evaluator

/-- The keys that can be seen from outside, with their values. -/
def publicEntries (ev : Evaluator) (ref : ObjectRef) (scope : FrameRef) (span : Span) :
    Run (List (String × Value)) := do
  ev.readProperties ref (← Run.read fun heap => (heap.object ref).publicKeys) scope span

end Evaluator

namespace Run

/-! ## JSON -/

/-- The JSON text of a value, on several lines if the second argument is true. -/
def stringify (args : List Value) (span : Span) : Run Value := do
  let pretty ← isTrue (args.getD 1 .null)
  let json ← lift span (← read fun heap => (args.headD .null).toJson heap)
  pure (.text (json.render pretty))

def parseJson (args : List Value) (span : Span) : Run Value := do
  match args.head? with
  | some (.text input) =>
    match Json.read? input with
    | some json => alloc fun heap => heap.ofJson json
    | none => fail .invalidJson span
  | other => fail (.jsonTextExpected (other.map Value.type)) span

/-! ## The process -/

/-- The exit code that a value stands for: a whole number of 32 bits. -/
def exitCode : Option Value → Except Cause Int
  | none | some .null => .ok 0
  | some value => do
    let x ← value.toNumber
    .ok (Number.truncateTo 32 x)

/-- End the process at once. -/
def exit (args : List Value) (span : Span) : Run Value := do
  let code ← lift span (exitCode args.head?)
  note (.exiting code)
  throw (.exit code)

end Run

namespace Evaluator

/-- Run a global function. -/
def runGlobal (ev : Evaluator) (function : GlobalFunction) (args : List Value)
    (scope : FrameRef) (span : Span) : Run Value := do
  match function with
  | .typeOf => pure (.text (args.headD .null).type.name)
  | .toNumber => return .number (← Run.lift span (args.headD .null).toNumber)
  | .toText => return .text (← Run.text (args.headD .null))
  | .toBool => return .bool (← Run.isTrue (args.headD .null))
  | .toList => Run.newList args.toArray
  | .objectKeys =>
    let ref ← Run.objectArgument function args span
    let keys ← Run.read fun heap => (heap.object ref).publicKeys
    Run.newList (keys.map Value.text).toArray
  | .objectValues =>
    let ref ← Run.objectArgument function args span
    let entries ← ev.publicEntries ref scope span
    Run.newList (entries.map Prod.snd).toArray
  | .objectEntries =>
    let ref ← Run.objectArgument function args span
    let entries ← ev.publicEntries ref scope span
    let pairs ← entries.mapM fun (key, value) => Run.newList #[.text key, value]
    Run.newList pairs.toArray
  | .objectFreeze =>
    let ref ← Run.objectArgument function args span
    Run.freeze ref
    pure (args.headD .null)
  | .objectIsFrozen =>
    let ref ← Run.objectArgument function args span
    return .bool (← Run.read fun heap => (heap.object ref).isFrozen)
  | .jsonStringify => Run.stringify args span
  | .jsonParse => Run.parseJson args span
  | .exit => Run.exit args span
  | .setTimeout =>
    let request ← Run.lift span (TimerRequest.ofArguments function.name args)
    Run.startTimer request false
  | .setInterval =>
    let request ← Run.lift span (TimerRequest.ofArguments function.name args)
    Run.startTimer request true
  | .clearTimeout | .clearInterval => Run.cancelTimer (← Run.lift span (timerId args))
  | .nap => Run.startTimer (← Run.lift span (TimerRequest.ofNap args)) false
  | .enqueue | .queueMicrotask | .queueMacrotask => Run.enqueue args span

end Evaluator

/-! ## The outermost scope -/

namespace Run

def newGlobal (function : GlobalFunction) : Run (String × Value) := do
  return (function.name, ← newFunction (.ofBuiltin (.global function)))

/-- Bind an object with the given members. -/
def bindNamespace (scope : FrameRef) (name : String) (members : List (String × Value)) :
    Run Unit := do
  let ref ← newObject (.ofPairs members)
  bind scope name { value := .object ref }

def bindAll (scope : FrameRef) (members : List (String × Value)) : Run Unit :=
  members.forM fun (name, value) => bind scope name { value }

/-- The version of the language. -/
def languageVersion : String := "0.1.0"

/-- Bind everything that a program can use without declaring it.  The functions
on timers are reached by their own names and through one object. -/
def installGlobals (scope : FrameRef) : Run Unit := do
  let conversions ← [GlobalFunction.typeOf, .toNumber, .toText, .toBool, .toList].mapM newGlobal
  bindAll scope conversions
  let objects ← [GlobalFunction.objectKeys, .objectValues, .objectEntries, .objectFreeze,
    .objectIsFrozen].mapM newGlobal
  bindNamespace scope "Object" objects
  let json ← [GlobalFunction.jsonStringify, .jsonParse].mapM newGlobal
  bindNamespace scope "json" json
  let process ← [GlobalFunction.exit].mapM newGlobal
  bindNamespace scope "swazi" (process ++ [("version", .text languageVersion)])
  let timers ← [GlobalFunction.setTimeout, .setInterval, .clearTimeout, .clearInterval,
    .nap].mapM newGlobal
  let queueing ← [GlobalFunction.queueMicrotask, .queueMacrotask].mapM newGlobal
  let enqueue ← newGlobal .enqueue
  bindAll scope (timers ++ [enqueue])
  bindNamespace scope "timers" (timers ++ queueing)

end Run

end Hati
