import Hati.Coercion
import Hati.Regex.Matcher
import Hati.Text.Case
import Hati.Text.Search

namespace Hati

/-!
# Methods of texts

Texts are counted and cut by characters.  No method looks at the heap: an answer
is a value, or the parts of a new list of texts.
-/

/-- What a method of a text answers. -/
inductive TextAnswer where
  | value (value : Value)
  | parts (parts : List String)

namespace TextMethod

/-! ## Arguments -/

/-- The argument at a position, which has to be a text. -/
def textArgument (method : TextMethod) (args : List Value) (position : Nat) :
    Except Cause String :=
  match args[position]? with
  | some (.text s) => .ok s
  | other => .error (.textExpected method.name (position + 1) (other.map Value.type))

/-- The flags of a pattern; without them there are none. -/
def flagsArgument (method : TextMethod) (args : List Value) (position : Nat) :
    Except Cause String :=
  match args[position]? with
  | none | some .null => .ok ""
  | some _ => method.textArgument args position

/-- The flag that a letter switches on. -/
def withFlag (flags : Regex.Flags) (letter : Char) : Except Cause Regex.Flags :=
  if ['i', 'm', 's', 'x'].contains letter then
    .ok ((flags.ofLetter? true letter).getD flags)
  else .error (.regexFlag letter)

/-- A pattern with the letters of its flags; the flags are looked at first. -/
def regex (pattern letters : String) : Except Cause Regex := do
  let flags ← letters.toList.foldlM withFlag {}
  match Regex.ofText? flags pattern with
  | some regex => .ok regex
  | none => .error (.regexPattern pattern)

end TextMethod

/-- A bound of a range, or the default for a bound that is left out. -/
def boundArgument (args : List Value) (position length default : Nat) : Except Cause Nat :=
  match args[position]? with
  | none | some .null => .ok default
  | some value => do
    let index ← value.toIndex
    .ok (normalizeBound index length)

/-- The range that two optional bounds describe; crossed bounds describe none. -/
def rangeArguments (args : List Value) (length : Nat) : Except Cause (Nat × Nat) := do
  let start ← boundArgument args 0 length 0
  let stop ← boundArgument args 1 length length
  .ok (start, stop)

namespace Text

/-! ## Answers -/

/-- The text `count` times over. -/
def repeated (s : String) (count : Nat) : String :=
  if s.isEmpty then "" else count.fold (fun _ _ text => text ++ s) ""

/-- The characters from `start` up to `stop`. -/
def slice (s : String) (start stop : Nat) : String :=
  String.ofList ((s.toList.take stop).drop start)

def repetition (s : String) (count : Value) : Except Cause String := do
  let x ← count.toNumber
  if x < 0 || x.isNaN || x.isInf then .error (.repeatCount (Decimal.shortestText x))
  else
    let times := x.toUInt64.toNat
    if s.utf8ByteSize * times ≤ maxTextLength then .ok (repeated s times)
    else .error (.repeatTooLong maxTextLength)

/-- The character at a position; there is none outside the text. -/
def charAt (s : String) (position : Int) : Value :=
  if position < 0 then .null
  else
    match s.toList[position.toNat]? with
    | some c => .text c.toString
    | none => .null

/-- How many characters stand before the first occurrence, or minus one. -/
def indexOf (s needle : String) : Value :=
  match position? needle.toList s.toList with
  | some position => .ofNat position
  | none => .number (-1)

end Text

namespace TextMethod

def answer (method : TextMethod) (s : String) (args : List Value) : Except Cause TextAnswer :=
  match method with
  | len => .ok (.value (.ofNat s.length))
  | upper => .ok (.value (.text (Text.upper s)))
  | lower => .ok (.value (.text (Text.lower s)))
  | trim => .ok (.value (.text (Text.trim s)))
  | split => do
    let separator ← method.textArgument args 0
    .ok (.parts ((Text.split separator.toList s.toList).map String.ofList))
  | contains => do
    let needle ← method.textArgument args 0
    .ok (.value (.bool (Text.contains needle.toList s.toList)))
  | startsWith => do
    let start ← method.textArgument args 0
    .ok (.value (.bool (start.toList.isPrefixOf s.toList)))
  | endsWith => do
    let ending ← method.textArgument args 0
    .ok (.value (.bool (ending.toList.isSuffixOf s.toList)))
  | replace => do
    let find ← method.textArgument args 0
    let replacement ← method.textArgument args 1
    .ok (.value (.text (String.ofList
      (Text.replace find.toList replacement.toList s.toList))))
  | «repeat» => do
    let text ← Text.repetition s (args.headD .null)
    .ok (.value (.text text))
  | charAt => do
    let position ← (args.headD (.number 0)).toIndex
    .ok (.value (Text.charAt s position))
  | slice => do
    let (start, stop) ← rangeArguments args s.length
    .ok (.value (.text (Text.slice s start stop)))
  | indexOf => do
    let needle ← method.textArgument args 0
    .ok (.value (Text.indexOf s needle))
  | «match» => do
    let pattern ← method.textArgument args 0
    let flags ← method.flagsArgument args 1
    let regex ← regex pattern flags
    .ok (.parts (regex.findAll s))
  | replaceRegex => do
    let pattern ← method.textArgument args 0
    let replacement ← method.textArgument args 1
    let flags ← method.flagsArgument args 2
    let regex ← regex pattern flags
    .ok (.value (.text (regex.replaceAll s replacement)))

end TextMethod

end Hati
