import Hati.Member

namespace Hati

/-!
# Operators

Addition joins texts and lists and adds everything else as numbers.  Texts
compare by their characters and everything else as numbers; a comparison with an
undefined number never holds.
-/

namespace Value

/-- An arithmetic operator on numbers, after the left and then the right operand
have been converted. -/
def arithmetic (f : Float → Float → Float) (left right : Value) : Except Cause Value := do
  let x ← left.toNumber
  let y ← right.toNumber
  .ok (.number (f x y))

/-- A division, which a divisor of zero makes fail with `byZero`. -/
def division (f : Float → Float → Float) (byZero : Cause) (left right : Value) :
    Except Cause Value := do
  let x ← left.toNumber
  let y ← right.toNumber
  if y == 0 then .error byZero else .ok (.number (f x y))

def compareNumbers (x y : Float) : Option Ordering :=
  if x < y then some .lt
  else if x > y then some .gt
  else if x == y then some .eq
  else none

/-- The order of two values, if they have one. -/
def order? : Value → Value → Except Cause (Option Ordering)
  | text a, text b => .ok (some (compare a b))
  | left, right => do
    let x ← left.toNumber
    let y ← right.toNumber
    .ok (compareNumbers x y)

/-- Whether the order of two values is one of those accepted. -/
def comparison (accepted : List Ordering) (left right : Value) : Except Cause Value := do
  let order ← left.order? right
  .ok (.bool (order.any accepted.contains))

def isText : Value → Bool
  | text _ => true
  | _ => false

/-- The sum of two values that are not both lists. -/
def sum (heap : Heap) (left right : Value) : Except Cause Value :=
  if left.isText || right.isText then .ok (.text (left.toText heap ++ right.toText heap))
  else arithmetic (· + ·) left right

/-- The result of an operator on two values.  Only the sum of two lists is not
found here, since it is a new list. -/
def binary (heap : Heap) : BinaryOp → Value → Value → Except Cause Value
  | .add, left, right => sum heap left right
  | .subtract, left, right => arithmetic (· - ·) left right
  | .multiply, left, right => arithmetic (· * ·) left right
  | .divide, left, right => division (· / ·) .divisionByZero left right
  | .modulo, left, right => division Number.remainder .moduloByZero left right
  | .power, left, right => arithmetic Float.pow left right
  | .equal, left, right => .ok (.bool (looselyEquals heap left right))
  | .notEqual, left, right => .ok (.bool (!looselyEquals heap left right))
  | .strictEqual, left, right => .ok (.bool (left.strictEquals right))
  | .strictNotEqual, left, right => .ok (.bool (!left.strictEquals right))
  | .less, left, right => comparison [.lt] left right
  | .greater, left, right => comparison [.gt] left right
  | .lessEqual, left, right => comparison [.lt, .eq] left right
  | .greaterEqual, left, right => comparison [.gt, .eq] left right
  | .and, left, right => .ok (.bool (left.isTrue heap && right.isTrue heap))
  | .or, left, right => .ok (.bool (left.isTrue heap || right.isTrue heap))

end Value

namespace Run

/-- Apply an operator to two values. -/
def binary (op : BinaryOp) (left right : Value) (span : Span) : Run Value := do
  match op, left, right with
  | .add, .list a, .list b => newList ((← items a) ++ (← items b))
  | _, _, _ => lift span (← read fun heap => Value.binary heap op left right)

end Run

/-! ## Updates in place -/

namespace UpdateOp

/-- Updates take numbers as they are and convert nothing. -/
def numeric (op : UpdateOp) : Value → Except Cause Float
  | .number x => .ok x
  | other => .error (.updateOperand op.symbol other.type)

def arithmetic (op : UpdateOp) (f : Float → Float → Float) (current operand : Value) :
    Except Cause Value := do
  let x ← op.numeric current
  let y ← op.numeric operand
  .ok (.number (f x y))

/-- The value that an update stores. -/
def apply (heap : Heap) (op : UpdateOp) (current : Value) (operand : Option Value) :
    Except Cause Value :=
  match op, operand with
  | increment, _ => op.arithmetic (· + ·) current (.number 1)
  | decrement, _ => op.arithmetic (· - ·) current (.number 1)
  | _, none => .error (.updateWithoutValue op.symbol)
  | add, some operand =>
    if current.isText || operand.isText then
      .ok (.text (current.toText heap ++ operand.toText heap))
    else op.arithmetic (· + ·) current operand
  | subtract, some operand => op.arithmetic (· - ·) current operand
  | multiply, some operand => op.arithmetic (· * ·) current operand

end UpdateOp

namespace Evaluator

/-- The value of an operator expression.  The right operand of a conjunction or
disjunction is evaluated only if the left one does not decide. -/
def binary (ev : Evaluator) (op : BinaryOp) (left right : Expr) (scope : FrameRef)
    (span : Span) : Run Value := do
  match op with
  | .and =>
    if ← ev.holds left scope then return .bool (← ev.holds right scope)
    else pure (.bool false)
  | .or =>
    if ← ev.holds left scope then pure (.bool true)
    else return .bool (← ev.holds right scope)
  | _ =>
    let leftValue ← ev.eval left scope
    let rightValue ← ev.eval right scope
    Run.binary op leftValue rightValue span

def unary (ev : Evaluator) (op : UnaryOp) (operand : Expr) (scope : FrameRef) : Run Value := do
  let value ← ev.eval operand scope
  match op with
  | .not => return .bool (!(← Run.isTrue value))
  | .negate => return .number (-(← Run.lift operand.span value.toNumber))
  | .plus => return .number (← Run.lift operand.span value.toNumber)

/-- The value that an update makes of the current one; its operand is evaluated
after the current value has been read. -/
def updated (ev : Evaluator) (op : UpdateOp) (current : Value) (operand : Option Expr)
    (scope : FrameRef) (span : Span) : Run Value := do
  let operand ← operand.mapM fun expr => ev.eval expr scope
  Run.lift span (← Run.read fun heap => op.apply heap current operand)

/-- Read a target, change its value and store it back; the result is the new value. -/
def update (ev : Evaluator) (op : UpdateOp) (target : Expr) (operand : Option Expr)
    (scope : FrameRef) (span : Span) : Run Value := do
  match target.node with
  | .name name =>
    let current ← Run.lookup scope name target.span
    let next ← ev.updated op current operand scope span
    Run.assign scope name next span
    pure next
  | .index object index _ =>
    let container ← ev.eval object scope
    let position ← ev.eval index scope
    let current ← ev.readIndex container position scope target.span
    let next ← ev.updated op current operand scope span
    Run.writeIndex container position next scope span
    pure next
  | .member object property _ =>
    let container ← ev.eval object scope
    let current ← ev.readMember container property scope target.span
    let next ← ev.updated op current operand scope span
    Run.writeMember container property next (.updatedProperty property container.type) scope span
    pure next
  | _ => Run.fail (.updateTarget op.symbol) target.span

end Evaluator

end Hati
