import Hati.Evaluator
import Hati.Library.Text

namespace Hati

/-!
# Methods of lists

Methods that call back walk over the elements that the list has when they are
called, whatever the callbacks do to the list.
-/

namespace Elements

/-! ## Searching, cutting and joining -/

/-- The position of the first element that is strictly equal to the wanted
value; without a wanted value, of the first null. -/
def position? (items : Array Value) (wanted : Option Value) : Option Nat :=
  items.toList.findIdx? fun item =>
    match wanted with
    | some value => item.strictEquals value
    | none => item.isNull

/-- The elements from `start` up to `stop`. -/
def slice (items : Array Value) (args : List Value) : Except Cause (Array Value) := do
  let (start, stop) ← rangeArguments args items.size
  .ok (items.extract start stop)

/-- A list that was cut in three: what stays in front, what is taken out, and
what stays behind. -/
structure Cut where
  front : Array Value
  removed : Array Value
  back : Array Value

/-- How many elements a splice takes out of the `available` ones: all of them
unless the argument says less. -/
def removalCount (count : Option Value) (available : Nat) : Except Cause Nat :=
  match count with
  | none | some .null => .ok available
  | some value => do
    let index ← value.toIndex
    .ok (min index.toNat available)

def cut (items : Array Value) (args : List Value) : Except Cause Cut := do
  let index ← (args.headD (.number 0)).toIndex
  let start := normalizeBound index items.size
  let count ← removalCount args[1]? (items.size - start)
  .ok {
    front := items.extract 0 start
    removed := items.extract start (start + count)
    back := items.extract (start + count) items.size }

/-- The texts of the elements with a separator between them. -/
def join (heap : Heap) (items : Array Value) (args : List Value) : String :=
  let separator :=
    match args.head? with
    | none | some .null => ","
    | some value => value.toText heap
  separator.intercalate (items.toList.map (Value.toText heap))

/-- What an argument adds to a list: its elements if it is a list, else itself. -/
def flattened (heap : Heap) : Value → List Value
  | .list ref => (heap.list ref).toList
  | other => [other]

/-! ## Sorting -/

/-- In the order of numbers and of texts; equal elements keep their order. -/
def sorted (heap : Heap) (items : List Value) : List Value :=
  items.mergeSort fun a b => Value.defaultOrder heap a b != .gt

/-- Insert an element into elements that are sorted from the last to the first:
it goes in front of those that it is not less than. -/
def insertM (less : Value → Value → Run Bool) (item : Value) : List Value → Run (List Value)
  | [] => pure [item]
  | other :: rest => do
    if ← less item other then return other :: (← insertM less item rest)
    else pure (item :: other :: rest)

/-- Sort by a comparison that may have effects; equal elements keep their order. -/
def sortedByM (less : Value → Value → Run Bool) (items : List Value) : Run (List Value) := do
  return (← items.foldlM (fun reversed item => insertM less item reversed) []).reverse

end Elements

namespace Evaluator

/-! ## Calling back -/

/-- The function that a method is given to call back. -/
def callback (method : ListMethod) (args : List Value) (span : Span) : Run Value :=
  match args.head? with
  | some (.function ref) => pure (.function ref)
  | other => Run.fail (.callbackExpected method.name (other.map Value.type)) span

/-- Ask a function about an element, its position and the list. -/
def ask (ev : Evaluator) (function : Value) (ref : ListRef) (scope : FrameRef) (span : Span)
    (element : Value × Nat) : Run Value :=
  ev.call function none [element.1, .ofNat element.2, .list ref] scope span

/-- Whether the answer about an element is true. -/
def accepts (ev : Evaluator) (function : Value) (ref : ListRef) (scope : FrameRef) (span : Span)
    (element : Value × Nat) : Run Bool := do
  Run.isTrue (← ev.ask function ref scope span element)

/-- A comparator answers below zero if its first argument comes first. -/
def comparatorLess (ev : Evaluator) (comparator : Value) (scope : FrameRef) (span : Span)
    (a b : Value) : Run Bool := do
  let answer ← ev.call comparator none [a, b] scope span
  let x ← Run.lift span answer.toNumber
  pure (decide (x < 0))

/-- Sort a list in place, by a comparator if there is one.  The list is written
only when all comparisons have succeeded. -/
def sortList (ev : Evaluator) (ref : ListRef) (args : List Value) (scope : FrameRef)
    (span : Span) : Run Value := do
  let items := (← Run.items ref).toList
  let sorted ← match args.head? with
    | none | some .null => Run.read fun heap => Elements.sorted heap items
    | some (.function comparator) =>
      Elements.sortedByM (ev.comparatorLess (.function comparator) scope span) items
    | some other => Run.fail (.comparatorExpected other.type) span
  Run.setList ref sorted.toArray
  pure (.list ref)

/-- Fold elements and their positions into one value.  Without an initial value
the first element starts the fold. -/
def reduceList (ev : Evaluator) (method : ListMethod) (ref : ListRef) (args : List Value)
    (elements : List (Value × Nat)) (scope : FrameRef) (span : Span) : Run Value := do
  let function ← callback method args span
  let step (accumulator : Value) (element : Value × Nat) : Run Value :=
    ev.call function none [accumulator, element.1, .ofNat element.2, .list ref] scope span
  match args[1]?, elements with
  | some initial, elements => elements.foldlM step initial
  | none, first :: rest => rest.foldlM step first.1
  | none, [] => Run.fail (.emptyReduction method.name) span

/-! ## The methods -/

/-- The elements of a list with their positions. -/
def elements (ref : ListRef) : Run (List (Value × Nat)) := do
  return (← Run.items ref).toList.zipIdx

/-- Run a method of a list. -/
def runListMethod (ev : Evaluator) (method : ListMethod) (ref : ListRef) (args : List Value)
    (scope : FrameRef) (span : Span) : Run Value := do
  match method with
  | .push =>
    Run.modifyHeap fun heap => heap.modifyList ref fun items => items ++ args.toArray
    return .ofNat (← Run.items ref).size
  | .pop =>
    let last := (← Run.items ref).back?
    Run.modifyHeap fun heap => heap.modifyList ref Array.pop
    pure (last.getD .null)
  | .shift =>
    let items ← Run.items ref
    Run.setList ref (items.extract 1 items.size)
    pure (items.getD 0 .null)
  | .unshift =>
    Run.modifyHeap fun heap => heap.modifyList ref fun items => args.toArray ++ items
    return .ofNat (← Run.items ref).size
  | .sort => ev.sortList ref args scope span
  | .reverse =>
    Run.modifyHeap fun heap => heap.modifyList ref Array.reverse
    pure (.list ref)
  | .splice =>
    let cut ← Run.lift span (Elements.cut (← Run.items ref) args)
    Run.setList ref (cut.front ++ (args.drop 2).toArray ++ cut.back)
    Run.newList cut.removed
  | .map =>
    let function ← callback method args span
    let answers ← (← elements ref).mapM (ev.ask function ref scope span)
    Run.newList answers.toArray
  | .filter =>
    let function ← callback method args span
    let kept ← (← elements ref).filterM (ev.accepts function ref scope span)
    Run.newList (kept.map Prod.fst).toArray
  | .forEach =>
    let function ← callback method args span
    let _ ← (← elements ref).mapM (ev.ask function ref scope span)
    pure .null
  | .find =>
    let function ← callback method args span
    let found ← (← elements ref).findM? (ev.accepts function ref scope span)
    pure ((found.map Prod.fst).getD .null)
  | .some =>
    let function ← callback method args span
    return .bool (← (← elements ref).anyM (ev.accepts function ref scope span))
  | .every =>
    let function ← callback method args span
    return .bool (← (← elements ref).allM (ev.accepts function ref scope span))
  | .includes => return .bool (Elements.position? (← Run.items ref) args.head?).isSome
  | .indexOf =>
    match Elements.position? (← Run.items ref) args.head? with
    | some position => pure (.ofNat position)
    | none => pure (.number (-1))
  | .reduce => ev.reduceList method ref args (← elements ref) scope span
  | .reduceRight => ev.reduceList method ref args (← elements ref).reverse scope span
  | .slice => Run.newList (← Run.lift span (Elements.slice (← Run.items ref) args))
  | .join => return .text (← Run.read fun heap => Elements.join heap (heap.list ref) args)
  | .concat =>
    let items ← Run.items ref
    let added ← Run.read fun heap => args.flatMap (Elements.flattened heap)
    Run.newList (items ++ added.toArray)
  | .toString => return .text (← Run.text (.list ref))

end Evaluator

end Hati
