import Hati.Span

namespace Hati

/-!
# Failures of a running program

A fault is a cause together with the place that raised it.  The causes are
data, so that a statement can say which failure arises; their wording and
their kind are fixed here once for the whole library.
-/

/-- The eight kinds of value a program handles. -/
inductive ValueType where
  | null | number | text | bool | function | list | object | «class»
deriving DecidableEq, Repr

namespace ValueType

/-- The name a program sees when it asks for a value's type. -/
def name : ValueType → String
  | null => "null"
  | number => "namba"
  | text => "neno"
  | bool => "bool"
  | function => "kazi"
  | list => "orodha"
  | object => "object"
  | «class» => "muundo"

end ValueType

inductive FaultKind where
  | typeError | valueError | permissionError | syntaxError | referenceError
  | divisionByZero | moduloByZero | runtimeError
deriving DecidableEq, Repr

namespace FaultKind

def name : FaultKind → String
  | typeError => "TypeError"
  | valueError => "ValueError"
  | permissionError => "PermissionError"
  | syntaxError => "SyntaxError"
  | referenceError => "ReferenceError"
  | divisionByZero => "DivisionByZero"
  | moduloByZero => "ModuloByZero"
  | runtimeError => "RuntimeError"

def all : List FaultKind :=
  [typeError, valueError, permissionError, syntaxError, referenceError, divisionByZero,
    moduloByZero, runtimeError]

def ofName? (name : String) : Option FaultKind :=
  all.find? (·.name == name)

end FaultKind

/-- Where a spread element stood when its source had the wrong type. -/
inductive SpreadPlace where
  | arguments | list | object
deriving DecidableEq, Repr

namespace SpreadPlace

def phrase : SpreadPlace → String
  | arguments => "arguments"
  | list => "an array"
  | object => "an object"

end SpreadPlace

/-- Why a property refuses to be written from outside its owner. -/
inductive Guard where
  | «private» | locked
deriving DecidableEq, Repr

namespace Guard

def word : Guard → String
  | «private» => "private"
  | locked => "locked"

end Guard

/-- Everything that can go wrong while a program runs. -/
inductive Cause where
  /- Names -/
  | undefinedVariable (name : String)
  | constantAssigned (name : String)
  | noReceiver
  /- Conversions -/
  | textNotNumeric (text : String)
  | notNumeric (found : ValueType)
  | indexNotANumber
  /- Operators -/
  | divisionByZero
  | moduloByZero
  | updatedProperty (name : String) (found : ValueType)
  | updateTarget (symbol : String)
  | updateWithoutValue (symbol : String)
  | updateOperand (symbol : String) (found : ValueType)
  /- Calls -/
  | notCallable (found : ValueType)
  | callDepth (limit : Nat)
  | strayJump
  | strayJumpIn (function : String)
  | tooFewArguments (function : String) (expected given : Nat)
  | restUnfilled (parameter function : String) (expected remaining : Nat)
  | argumentMissing (parameter function : String)
  /- Members -/
  | propertyOfNull (name : String)
  | unknownProperty (name : String) (found : ValueType)
  | indexedNull
  | notIndexable (found : ValueType)
  | privateRead (key : String)
  | readonlyWritten (key : String)
  | guardedWrite (guard : Guard) (key : String)
  /- Statements -/
  | constantWithoutValue
  | functionWithoutName
  | notIterable (found : ValueType)
  | assignedProperty (name : String) (found : ValueType)
  | assignmentTarget
  | negativeIndex
  | indexTooLarge (index : Int) (limit : Nat)
  | assignedByIndex (found : ValueType)
  | outputRefused
  /- Patterns -/
  | notAListPattern (found : ValueType)
  | notAnObjectPattern (found : ValueType)
  | targetWithoutName
  | restNotLast
  /- Literals -/
  | spreadMisplaced
  | notSpreadable (found : ValueType) (place : SpreadPlace)
  /- Classes -/
  | notAClass (found : ValueType)
  | notASuperclass (name superclass : String) (found : ValueType)
  | superOutsideConstructor
  | superOutsideClass
  | noSuperclass (name : String)
  | noSuperMethod (name method : String)
  | notDeletable (found : ValueType)
  /- Methods of texts, numbers and lists -/
  | textExpected (method : String) (position : Nat) (found : Option ValueType)
  | repeatCount (count : String)
  | repeatTooLong (limit : Nat)
  | fixedDigits (digits : String)
  | callbackExpected (method : String) (found : Option ValueType)
  | comparatorExpected (found : ValueType)
  | emptyReduction (method : String)
  | regexFlag (flag : Char)
  | regexPattern (pattern : String)
  /- Global functions -/
  | objectExpected (method : String) (found : Option ValueType)
  | cyclicStructure
  | notSerializable (found : ValueType)
  | jsonTextExpected (found : Option ValueType)
  | invalidJson
  | timerArguments (function : String)
  | timerId (function : String)
  | notSchedulable
  /- The system -/
  | threadRefused (reason : String)
deriving DecidableEq, Repr

namespace Cause

private def quoted (text : String) : String := "'" ++ text ++ "'"

private def ticked (found : ValueType) : String := "`" ++ found.name ++ "`"

private def tickedOrNothing : Option ValueType → String
  | some found => ticked found
  | none => "`nothing`"

def kind : Cause → FaultKind
  | undefinedVariable _ | noReceiver => .referenceError
  | textNotNumeric _ | negativeIndex | indexTooLarge .. | repeatCount _ | repeatTooLong _
  | fixedDigits _ | invalidJson => .valueError
  | privateRead _ | readonlyWritten _ | guardedWrite .. => .permissionError
  | updateTarget _ | updateWithoutValue _ | strayJump | strayJumpIn _ | constantWithoutValue
  | functionWithoutName | assignmentTarget | targetWithoutName | restNotLast | spreadMisplaced
  | superOutsideConstructor | superOutsideClass | regexFlag _ | regexPattern _ => .syntaxError
  | divisionByZero => .divisionByZero
  | moduloByZero => .moduloByZero
  | callDepth _ | outputRefused | threadRefused _ => .runtimeError
  | constantAssigned _ | notNumeric _ | indexNotANumber | updatedProperty .. | updateOperand ..
  | notCallable _ | tooFewArguments .. | restUnfilled .. | argumentMissing .. | propertyOfNull _
  | unknownProperty .. | indexedNull | notIndexable _ | notIterable _ | assignedProperty ..
  | assignedByIndex _ | notAListPattern _ | notAnObjectPattern _ | notSpreadable .. | notAClass _
  | notASuperclass .. | noSuperclass _ | noSuperMethod .. | notDeletable _ | textExpected ..
  | callbackExpected .. | comparatorExpected _ | emptyReduction _ | objectExpected ..
  | cyclicStructure | notSerializable _ | jsonTextExpected _ | timerArguments _ | timerId _
  | notSchedulable => .typeError

def message : Cause → String
  | undefinedVariable name => "Undefined variable " ++ quoted name
  | constantAssigned name => "Cannot assign to constant " ++ quoted name
  | noReceiver => "No receiver ('$' / this) is bound here"
  | textNotNumeric text => "Cannot convert string " ++ quoted text ++ " to number"
  | notNumeric found => "Cannot convert value of type " ++ ticked found ++ " to a number"
  | indexNotANumber => "Array index must be a number"
  | divisionByZero => "Division by zero"
  | moduloByZero => "Modulo by zero"
  | updatedProperty name found =>
    "Cannot update property " ++ quoted name ++ " on a value of type " ++ ticked found
  | updateTarget symbol => "Invalid target for " ++ quoted symbol
  | updateWithoutValue symbol => quoted symbol ++ " needs a right-hand value"
  | updateOperand symbol found =>
    "Operator " ++ quoted symbol ++ " expects a number, got a value of type " ++ ticked found
  | notCallable found => "A value of type " ++ ticked found ++ " is not callable"
  | callDepth limit => "Maximum call depth of " ++ toString limit ++ " exceeded"
  | strayJump => "'break' or 'continue' outside of a loop"
  | strayJumpIn function => "'break' or 'continue' outside of a loop in " ++ quoted function
  | tooFewArguments function expected given =>
    "Function " ++ quoted function ++ " expects at least " ++ toString expected
      ++ " argument(s), but " ++ toString given ++ " were provided"
  | restUnfilled parameter function expected remaining =>
    "Rest parameter " ++ quoted parameter ++ " of " ++ quoted function ++ " requires "
      ++ toString expected ++ " argument(s), but " ++ toString remaining ++ " remain"
  | argumentMissing parameter function =>
    "Missing required argument " ++ quoted parameter ++ " for " ++ quoted function
  | propertyOfNull name => "Cannot read property " ++ quoted name ++ " of null"
  | unknownProperty name found =>
    "Unknown property " ++ quoted name ++ " on a value of type " ++ ticked found
  | indexedNull => "Cannot index into null"
  | notIndexable found => "Cannot index into a value of type " ++ ticked found
  | privateRead key => "Cannot access private property " ++ quoted key ++ " from outside its owner"
  | readonlyWritten key => "Cannot assign to readonly property " ++ quoted key
  | guardedWrite guard key =>
    "Cannot modify " ++ guard.word ++ " property " ++ quoted key ++ " from outside its owner"
  | constantWithoutValue => "Constant declarations must be initialized"
  | functionWithoutName => "Function declarations need a name"
  | notIterable found => "Cannot iterate over a value of type " ++ ticked found
  | assignedProperty name found =>
    "Cannot assign property " ++ quoted name ++ " on a value of type " ++ ticked found
  | assignmentTarget => "Invalid assignment target"
  | negativeIndex => "Negative array index not supported"
  | indexTooLarge index limit =>
    "Array index " ++ toString index ++ " exceeds the maximum array length of " ++ toString limit
  | assignedByIndex found => "Cannot assign by index into a value of type " ++ ticked found
  | outputRefused => "Failed to write output: sink full"
  | notAListPattern found => "Cannot destructure non-array value of type " ++ ticked found
  | notAnObjectPattern found => "Cannot destructure non-object value of type " ++ ticked found
  | targetWithoutName => "Destructuring target needs a name"
  | restNotLast => "Rest element must be last in an array pattern"
  | spreadMisplaced =>
    "Spread is only allowed in array literals, object literals and argument lists"
  | notSpreadable found place =>
    "Cannot spread a value of type " ++ ticked found ++ " into " ++ place.phrase
  | notAClass found => "'new' expects a class, got a value of type " ++ ticked found
  | notASuperclass name superclass found =>
    "Class " ++ quoted name ++ " cannot extend " ++ quoted superclass ++ ", a value of type "
      ++ ticked found
  | superOutsideConstructor => "'super(...)' can only be used inside a constructor"
  | superOutsideClass => "'super' can only be used inside a class"
  | noSuperclass name => "Class " ++ quoted name ++ " has no superclass"
  | noSuperMethod name method =>
    "Superclass of " ++ quoted name ++ " has no method " ++ quoted method
  | notDeletable found => "Cannot delete a value of type " ++ ticked found
  | textExpected method position found =>
    method ++ "() expects a string as argument " ++ toString position ++ ", got "
      ++ tickedOrNothing found
  | repeatCount count => "repeat() count must be a non-negative number, got " ++ count
  | repeatTooLong limit =>
    "repeat() result would exceed the maximum string length of " ++ toString limit
  | fixedDigits digits => "toFixed() digits must be between 0 and 100, got " ++ digits
  | callbackExpected method found =>
    method ++ "() expects a function, got " ++ tickedOrNothing found
  | comparatorExpected found => "sort() comparator must be a function, got " ++ ticked found
  | emptyReduction method => method ++ "() of an empty array with no initial value"
  | regexFlag flag => "Invalid regex flag " ++ quoted flag.toString
  | regexPattern pattern => "Invalid regex pattern " ++ quoted pattern
  | objectExpected method found =>
    "Object." ++ method ++ "() requires an object, got " ++ tickedOrNothing found
  | cyclicStructure => "Cannot serialize a cyclic structure"
  | notSerializable found => "Cannot serialize a value of type " ++ ticked found ++ " to JSON"
  | jsonTextExpected found => "json.parse() expects a string, got " ++ tickedOrNothing found
  | invalidJson => "Invalid JSON"
  | timerArguments function => function ++ " expects a function and a delay in milliseconds"
  | timerId function => function ++ "(id) requires a numeric timer id"
  | notSchedulable => "Expected a function to schedule"
  | threadRefused reason => "Failed to start timer thread: " ++ reason

/-- Only a refused regex flag comes with advice. -/
def help : Cause → Option String
  | regexFlag _ => some "supported flags are i, m, s and x"
  | _ => none

end Cause

/-- A failure and the place that raised it. -/
structure Fault where
  cause : Cause
  span : Span
deriving DecidableEq, Repr

namespace Fault

/-- Work done on behalf of a call reports the call when it has no place of its own. -/
def orAt (fault : Fault) (span : Span) : Fault :=
  { fault with span := fault.span.orElse span }

/-- The kind and the message on one line. -/
def summary (fault : Fault) : String :=
  fault.cause.kind.name ++ ": " ++ fault.cause.message

end Fault

end Hati
