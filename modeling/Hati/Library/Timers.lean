import Hati.Evaluator

namespace Hati

/-!
# Scheduling functions

Delays are given in milliseconds and kept in nanoseconds.  A timer takes its
function and its delay in either order.
-/

namespace Delay

/-- Longer delays count as this one. -/
def maxMillis : Float := 1.0e12

/-- The nanoseconds of a number of seconds that is not negative, rounded from
the exact value. -/
def nanosOfSeconds (seconds : Float) : Nat :=
  match Dyadic.ofFloat? seconds with
  | none => 0
  | some exact => Decimal.roundHalfEven (exact.numerator * Nat.pow 10 9) exact.denominator

/-- The delay that a value stands for; null, negative and undefined delays are none at all. -/
def ofValue (value : Value) : Except Cause Nat :=
  match value with
  | .null => .ok 0
  | value => do
    let millis ← value.toNumber
    if millis.isNaN || millis ≤ 0 then .ok 0
    else .ok (nanosOfSeconds ((if millis < maxMillis then millis else maxMillis) / 1000))

end Delay

/-- What a timer is started with. -/
structure TimerRequest where
  delay : Nat
  task : Task Value

namespace TimerRequest

/-- A function and a delay in either order, then the arguments of the function. -/
def ofArguments (function : String) (args : List Value) : Except Cause TimerRequest :=
  let first := args.headD .null
  let second := args.getD 1 .null
  let request (callback delay : Value) : Except Cause TimerRequest := do
    let delay ← Delay.ofValue delay
    .ok { delay, task := { callback, arguments := args.drop 2 } }
  match first, second with
  | .function _, _ => request first second
  | _, .function _ => request second first
  | _, _ => .error (.timerArguments function)

/-- A nap may do without a function; it then only keeps the program alive. -/
def ofNap (args : List Value) : Except Cause TimerRequest :=
  if args.length ≤ 1 then do
    let delay ← Delay.ofValue (args.headD .null)
    .ok { delay, task := { callback := .null, arguments := [] } }
  else ofArguments GlobalFunction.nap.name args

end TimerRequest

/-- The number that names a timer. -/
def timerId (args : List Value) : Except Cause Nat :=
  let refusal := Cause.timerId GlobalFunction.clearTimeout.name
  match args.head? with
  | some (.number x) => if x ≥ 0 then .ok x.toUInt64.toNat else .error refusal
  | _ => .error refusal

namespace Run

/-- Start a timer; the result is its number.  A refusal of the system has no place
in the program. -/
def startTimer (request : TimerRequest) (repeats : Bool) : Run Value := do
  match ← schedule fun scheduler => scheduler.start request.delay request.task repeats with
  | .ok id =>
    note (.armedTimer id (request.delay / Scheduler.nanosPerMilli) repeats)
    pure (.ofNat id)
  | .error reason => fail (.threadRefused reason) .builtin

/-- Cancel a timer; the result tells whether there was one. -/
def cancelTimer (id : Nat) : Run Value := do
  let wasLive ← schedule fun scheduler => scheduler.cancel id
  if wasLive then note (.cancelledTimer id)
  pure (.bool wasLive)

/-- Queue a function with its arguments. -/
def enqueue (args : List Value) (span : Span) : Run Value := do
  match args with
  | .function ref :: arguments =>
    let _ ← schedule fun scheduler => scheduler.enqueue { callback := .function ref, arguments }
    pure .null
  | _ => fail .notSchedulable span

end Run

end Hati
