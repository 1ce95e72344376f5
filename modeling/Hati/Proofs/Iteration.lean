import Hati.Proofs.Effect
import Hati.Proofs.Passage

namespace Hati

/-!
# Iteration

What an iteration goes through is settled before its first pass: the elements of a list or the
characters of a text with their positions, or the keys of an object with the values that are read
under them.  Nothing that the body does can add a pass or take one away, except that it ends the
whole iteration with a break, a return or a failure.

Each pass runs the body in a frame of its own, which nothing else refers to when the pass begins.
-/

/-! ## One pass -/

/-- What the frame of a pass binds.  A name that is given twice stands for the second value. -/
def passBindings (first : String) (second : Option String) (pair : Value × Value) :
    List (String × Binding) :=
  match second with
  | none => [(first, { value := pair.1 })]
  | some second =>
    if first = second then [(second, { value := pair.2 })]
    else [(first, { value := pair.1 }), (second, { value := pair.2 })]

/-- The frame of a pass, inside the scope of the iteration. -/
def Frame.ofPass (scope : FrameRef) (first : String) (second : Option String)
    (pair : Value × Value) : Frame where
  parent := some scope
  bindings := ⟨passBindings first second pair⟩

namespace Signal

/-- The signal of a pass ends the iteration. -/
def leavesLoop : Signal → Bool
  | .broke | .returned _ => true
  | .proceed | .continued => false

/-- How an iteration ends whose passes ended so.  Only a return is passed on. -/
def afterLoop (signals : List Signal) : Signal :=
  match signals.getLast? with
  | some (.returned value) => .returned value
  | _ => .proceed

/-- A pass that does not leave the loop has no say in how the loop ends. -/
theorem afterLoop_cons {signal : Signal} (stays : signal.leavesLoop = false)
    (signals : List Signal) : afterLoop (signal :: signals) = afterLoop signals := by
  cases signals with
  | nil => cases signal <;> first | rfl | cases stays
  | cons next signals => rfl

theorem lap_of_stays {signal : Signal} (stays : signal.leavesLoop = false) :
    signal.lap = .again := by
  cases signal <;> first | rfl | cases stays

end Signal

namespace Evaluator

variable {ev : Evaluator} {scope : FrameRef} {first : String} {second : Option String}
  {body : List Stmt}

/-- Run the body in a new frame for the pair. -/
def pass (ev : Evaluator) (scope : FrameRef) (first : String) (second : Option String)
    (body : List Stmt) (pair : Value × Value) : Run Signal := fun machine =>
  let entered := machine.heap.allocFrame (.ofPass scope first second pair)
  ev.block entered.1 body { machine with heap := entered.2 }

theorem passScope_apply (pair : Value × Value) (machine : Machine) :
    passScope scope first second pair machine =
      .ok (machine.heap.allocFrame (.ofPass scope first second pair)).1
        { machine with heap := (machine.heap.allocFrame (.ofPass scope first second pair)).2 } := by
  let outer : Frame := { parent := some scope }
  have enters := Heap.bind_allocFrame machine.heap outer first { value := pair.1 }
  cases second with
  | none => exact congrArg (fun heap => EStateM.Result.ok _ { machine with heap }) enters
  | some second =>
      refine congrArg (fun heap => EStateM.Result.ok _ { machine with heap }) ?_
      refine (congrArg (Heap.bind · _ second { value := pair.2 }) enters).trans ?_
      refine (Heap.bind_allocFrame machine.heap (.ofPass scope first none pair) second
        { value := pair.2 }).trans (congrArg (fun frame => (machine.heap.allocFrame frame).2) ?_)
      by_cases same : first = second
      · simp [Frame.ofPass, passBindings, Dict.insert, Dict.insertEntry, same]
      · simp [Frame.ofPass, passBindings, Dict.insert, Dict.insertEntry, same]

theorem pass_eq (pair : Value × Value) :
    ev.pass scope first second body pair = (do
      let inner ← passScope scope first second pair
      ev.block inner body) := by
  funext machine
  rw [Run.bind_of_ok (passScope_apply pair machine)]
  rfl

theorem iterate_eq_through (pairs : List (Value × Value)) :
    ev.iterate scope first second body pairs =
      Signal.afterLoop <$>
        Run.through Signal.leavesLoop (ev.pass scope first second body) pairs := by
  induction pairs with
  | nil => rfl
  | cons pair pairs ih =>
      rw [iterate_cons, ← bind_assoc, ← pass_eq, Run.through, map_bind]
      refine bind_congr fun signal => ?_
      -- What comes behind a pass is looked at only if the pass does not leave the loop.
      cases leaves : signal.leavesLoop with
      | true => cases signal <;> first | rfl | cases leaves
      | false =>
          rw [Signal.lap_of_stays leaves, if_neg Bool.false_ne_true]
          simp only [ih, map_eq_pure_bind, bind_assoc, pure_bind, Signal.afterLoop_cons leaves]

/-! ## What is gone through -/

/-- Items with their positions. -/
def numbered (items : List Value) : List (Value × Value) :=
  items.zipIdx.map fun (item, position) => (item, .ofNat position)

/-- The keys of an object that the code of a scope sees, in the order in which they came in: all but
the link to the class if it is the object's own code, and else those of properties that are not
private. -/
def visibleKeys (heap : Heap) (scope : FrameRef) (ref : ObjectRef) : List String :=
  let isVisible (key : String) (property : Property) : Bool :=
    if heap.isInternal scope ref then key != classLinkName else !property.access.isPrivate
  ((heap.object ref).properties.entries.filter fun entry => isVisible entry.1 entry.2).map Prod.fst

theorem iteratedKeys_eq (heap : Heap) (scope : FrameRef) (ref : ObjectRef) :
    iteratedKeys heap scope ref = visibleKeys heap scope ref := by
  unfold iteratedKeys visibleKeys
  cases heap.isInternal scope ref with
  | true => exact List.filter_map
  | false => rfl

/-- Read the property under a key of an object. -/
def readEntry (ev : Evaluator) (ref : ObjectRef) (scope : FrameRef) (span : Span) (key : String) :
    Run (Value × Value) := do
  let value ← ev.readProperty ref key scope span
  pure (.text key, value)

/-- All values are read before the pairs are made. -/
theorem readProperties_eq_through (ref : ObjectRef) (span : Span) (keys : List String) :
    (do
      let entries ← ev.readProperties ref keys scope span
      pure (entries.map fun (key, value) => (Value.text key, value)) : Run _) =
      Run.through (fun _ => false) (ev.readEntry ref scope span) keys := by
  let visit (key : String) : Run (String × Value) := do
    let value ← ev.readProperty ref key scope span
    pure (key, value)
  have entry : ev.readEntry ref scope span =
      fun key => (fun pair => (Value.text pair.1, pair.2)) <$> visit key := by
    funext key
    simp [readEntry, visit]
  rw [← Run.mapM_eq_through_visit, entry, Run.mapM_eq_through, ← Run.mapM_eq_through_visit]
  exact (map_eq_pure_bind _ _).symm

/-- What an iteration comes to go through, and the machine that it begins on. -/
inductive GoesThrough (ev : Evaluator) (scope : FrameRef) (span : Span) (begun : Machine) :
    Value → EStateM.Result Halt Machine (List (Value × Value)) → Prop where
  | list (ref : ListRef) :
    GoesThrough ev scope span begun (.list ref) (.ok (numbered (begun.heap.list ref).toList) begun)
  | text (s : String) :
    GoesThrough ev scope span begun (.text s) (.ok (numbered (Value.characters s)) begun)
  | object (ref : ObjectRef) {result : EStateM.Result Halt Machine (List (Value × Value))}
    (reads : Run.Passage (fun _ => false) (ev.readEntry ref scope span)
      (visibleKeys begun.heap scope ref) begun result) :
    GoesThrough ev scope span begun (.object ref) result
  | other {source : Value} (notList : source.type ≠ .list) (notText : source.type ≠ .text)
    (notObject : source.type ≠ .object) :
    GoesThrough ev scope span begun source
      (.error (.fault ⟨.notIterable source.type, span⟩) begun)

theorem goesThrough_iterationPairs (span : Span) (begun : Machine) (source : Value) :
    GoesThrough ev scope span begun source (ev.iterationPairs source scope span begun) := by
  cases source with
  | list ref => exact .list ref
  | text s => exact .text s
  | object ref =>
      refine .object ref ?_
      rw [← iteratedKeys_eq]
      have reads : ev.iterationPairs (.object ref) scope span begun =
          Run.through (fun _ => false) (ev.readEntry ref scope span)
            (iteratedKeys begun.heap scope ref) begun :=
        congrFun (readProperties_eq_through ref span _) begun
      rw [reads]
      exact Run.passage_through _ begun
  | _ => exact .other nofun nofun nofun

/-- An iteration goes through what was there when its source had been evaluated, whatever its body
does: each pass runs the body once, in a frame of its own that binds the next pair.  The iteration
ends behind the last pair, at the first pass that breaks or returns, or at the first failure; a
`continue` ends its own pass alone. -/
theorem iteration_visits_snapshot (ev : Evaluator) (first : String) (second : Option String)
    (iterable : Expr) (body : List Stmt) (span : Span) (scope : FrameRef) (machine : Machine) :
    let result := ev.statement ⟨.forIn first second iterable body, span⟩ scope machine
    match ev.eval iterable scope machine with
    | .error halt after => result = .error halt after
    | .ok source begun =>
      ∃ found, GoesThrough ev scope iterable.span begun source found ∧
        match found with
        | .error halt after => result = .error halt after
        | .ok pairs ready =>
          ∃ walk, Run.Passage Signal.leavesLoop (ev.pass scope first second body) pairs ready walk ∧
            result =
              match walk with
              | .ok signals after => .ok (Signal.afterLoop signals) after
              | .error halt after => .error halt after := by
  intro result
  cases evaluated : ev.eval iterable scope machine with
  | error halt after => exact Run.bind_of_error evaluated
  | ok source begun =>
      have continues : result = (do
          let pairs ← ev.iterationPairs source scope iterable.span
          ev.iterate scope first second body pairs : Run Signal) begun := Run.bind_of_ok evaluated
      refine ⟨_, goesThrough_iterationPairs iterable.span begun source, ?_⟩
      cases found : ev.iterationPairs source scope iterable.span begun with
      | error halt after => exact continues.trans (Run.bind_of_error found)
      | ok pairs ready =>
          refine ⟨_, Run.passage_through pairs ready, ?_⟩
          have iterates : result = ev.iterate scope first second body pairs ready :=
            continues.trans (Run.bind_of_ok found)
          rw [iterates, iterate_eq_through, Run.map_apply]
          cases Run.through Signal.leavesLoop (ev.pass scope first second body) pairs ready <;> rfl

end Evaluator

end Hati
