import Hati.Property

namespace Hati

/-!
# Binding names to parts of a value

A declaration binds all names of its pattern in the innermost frame.  What the
value has no part for becomes null.
-/

namespace ListSlot

def isRest : ListSlot → Bool
  | rest _ => true
  | _ => false

end ListSlot

namespace Pattern

/-- Why a pattern binds nothing at all: every target needs a name, and a rest
has to be the last element. -/
def defect? (pattern : Pattern) : Option Cause :=
  if pattern.boundNames.any String.isEmpty then some .targetWithoutName
  else
    match pattern with
    | list slots => if slots.dropLast.any ListSlot.isRest then some .restNotLast else none
    | _ => none

end Pattern

namespace Run

/-- Bind the names of a list pattern to the elements that are left. -/
def bindSlots (scope : FrameRef) (isConstant : Bool) : List ListSlot → List Value → Run Unit
  | [], _ => pure ()
  | .hole :: slots, items => bindSlots scope isConstant slots items.tail
  | .bind name :: slots, items => do
    bind scope name { value := items.headD .null, isConstant }
    bindSlots scope isConstant slots items.tail
  | .rest name :: slots, items => do
    bind scope name { value := ← newList items.toArray, isConstant }
    bindSlots scope isConstant slots items.tail

end Run

namespace Evaluator

/-- Bind every field of an object pattern as soon as it is read. -/
def bindFields (ev : Evaluator) (scope : FrameRef) (isConstant : Bool) (ref : ObjectRef)
    (span : Span) : List (String × String) → Run Unit
  | [] => pure ()
  | (key, target) :: fields => do
    let value ← ev.readProperty ref key scope span
    Run.bind scope target { value, isConstant }
    bindFields ev scope isConstant ref span fields

def bindPattern (ev : Evaluator) (pattern : Pattern) (value : Value) (isConstant : Bool)
    (scope : FrameRef) (span : Span) : Run Unit := do
  match pattern.defect? with
  | some cause => Run.fail cause span
  | none =>
    match pattern, value with
    | .name name, value => Run.bind scope name { value, isConstant }
    | .list slots, .list ref => Run.bindSlots scope isConstant slots (← Run.items ref).toList
    | .list _, other => Run.fail (.notAListPattern other.type) span
    | .object fields, .object ref => ev.bindFields scope isConstant ref span fields
    | .object _, other => Run.fail (.notAnObjectPattern other.type) span

end Evaluator

end Hati
