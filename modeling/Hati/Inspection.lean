import Hati.Rendering

namespace Hati

/-!
# Values as a debugger shows them

One line for each value, with its type, and never more than one level deep, so
that cyclic values need no special care.
-/

private def optionText (name : Option String) : String :=
  match name with
  | some name => "Some(" ++ Text.quoted name ++ ")"
  | none => "None"

private def listText (items : List String) : String :=
  "[" ++ ", ".intercalate items ++ "]"

private def flagText (flag : Bool) : String :=
  if flag then "true" else "false"

namespace Value

def inspect (heap : Heap) : Value → String
  | null => "Null"
  | number x => "Number(" ++ Decimal.shortestText x ++ ")"
  | text s => "String(" ++ Text.quoted s ++ ")"
  | bool b => "Bool(" ++ flagText b ++ ")"
  | function ref => "Function(" ++ (heap.function ref).name ++ ")"
  | list ref => "Array(len=" ++ toString (heap.list ref).size ++ ")"
  | object ref =>
    "Object(keys=" ++ listText ((heap.object ref).properties.keys.map Text.quoted) ++ ")"
  | «class» ref => "Class(" ++ (heap.class ref).name ++ ")"

/-- Functions and classes with what lies behind them, all else as usual. -/
def inspectInner (heap : Heap) : Value → String
  | function ref =>
    let function := heap.function ref
    let kind := if function.isBuiltin then "native" else "user"
    "FunctionValue(" ++ kind ++ " " ++ function.name ++ ")"
  | «class» ref =>
    let cls := heap.class ref
    let parent := cls.superclass.map fun parent => (heap.class parent).name
    "ClassValue \x7b name: " ++ Text.quoted cls.name ++ ", superclass: " ++ optionText parent
      ++ " \x7d"
  | other => other.inspect heap

end Value

namespace Frame

/-- The names of a scope in alphabetical order, and whether another scope is around it. -/
def inspect (frame : Frame) : String :=
  let names := frame.bindings.keys.mergeSort fun a b => !decide (b < a)
  "Environment \x7b names: " ++ listText (names.map Text.quoted) ++ ", has_parent: "
    ++ flagText frame.parent.isSome ++ " \x7d"

end Frame

end Hati
