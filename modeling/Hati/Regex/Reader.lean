import Hati.Regex.Pattern

namespace Hati
namespace Regex

/-!
# Reading patterns

A pattern is read from left to right.  The reader knows the rest of the pattern,
the flags in force and the capture groups met so far; it fails on everything
that is not a pattern.
-/

structure ReaderState where
  rest : List Char
  /-- The length of the whole pattern, which bounds how often anything can be read. -/
  length : Nat := rest.length
  flags : Flags := {}
  captureCount : Nat := 0
  captureNames : List (String × Nat) := []

abbrev Reader := StateT ReaderState Option

namespace Reader

/-! ## Characters -/

def refuse {α : Type} : Reader α := fun _ => none

def rest : Reader (List Char) := do
  return (← get).rest

def flags : Reader Flags := do
  return (← get).flags

def length : Reader Nat := do
  return (← get).length

def setRest (rest : List Char) : Reader Unit :=
  modify fun state => { state with rest }

/-- The next character; at the end of the pattern the reader fails. -/
def peek : Reader Char := do
  match ← rest with
  | [] => refuse
  | c :: _ => return c

def bump : Reader Unit :=
  modify fun state => { state with rest := state.rest.drop 1 }

/-- Drop white space and comments. -/
def dropIgnored : Bool → List Char → List Char
  | _, [] => []
  | true, c :: rest => dropIgnored (c != '\n') rest
  | false, c :: rest =>
    if Text.isBlank c then dropIgnored false rest
    else if c == '#' then dropIgnored true rest
    else c :: rest

/-- The characters from here on that belong to the pattern. -/
def significant (flags : Flags) (chars : List Char) : List Char :=
  if flags.ignoreBlank then dropIgnored false chars else chars

def skipIgnored : Reader Unit :=
  modify fun state => { state with rest := significant state.flags state.rest }

def advance : Reader Unit := do
  bump
  skipIgnored

/-- Move on to the next character, which must exist. -/
def advanceInside : Reader Unit := do
  advance
  let _ ← peek

/-- Take a fixed text if the pattern goes on with it. -/
def accept (text : String) : Reader Bool := do
  let chars ← rest
  if text.toList.isPrefixOf chars then
    setRest (chars.drop text.length)
    return true
  else return false

/-- Take characters while they satisfy a condition, ignoring what is ignored. -/
def takeWhile (condition : Char → Bool) : Nat → Reader (List Char)
  | 0 => return []
  | rounds + 1 => do
    match ← rest with
    | [] => return []
    | c :: _ =>
      if condition c then
        advance
        let taken ← takeWhile condition rounds
        return c :: taken
      else return []

def takeAllWhile (condition : Char → Bool) : Reader (List Char) := do
  takeWhile condition (← length)

/-! ## Escapes -/

def hexValue? (c : Char) : Option Nat :=
  if '0' ≤ c ∧ c ≤ '9' then some (c.toNat - '0'.toNat)
  else if 'a' ≤ c ∧ c ≤ 'f' then some (c.toNat - 'a'.toNat + 10)
  else if 'A' ≤ c ∧ c ≤ 'F' then some (c.toNat - 'A'.toNat + 10)
  else none

def isHex (c : Char) : Bool :=
  (hexValue? c).isSome

/-- The character with a code in hexadecimal, if there is one. -/
def charOfHex (digits : List Char) : Reader Char :=
  let code := digits.foldl (fun n c => 16 * n + (hexValue? c).getD 0) 0
  if digits.isEmpty || !code.isValidChar then refuse else return Char.ofNat code

/-- Exactly `count` hexadecimal digits. -/
def hexDigits : Nat → Reader (List Char)
  | 0 => return []
  | count + 1 => do
    let c ← peek
    if isHex c then
      advance
      let digits ← hexDigits count
      return c :: digits
    else refuse

/-- A character by its code, from behind the letter that announces it. -/
def hexEscape (count : Nat) : Reader Char := do
  let c ← peek
  if c == '\x7b' then
    advance
    let digits ← takeAllWhile isHex
    if (← peek) == '\x7d' then
      advance
      charOfHex digits
    else refuse
  else
    let digits ← hexDigits count
    charOfHex digits

def splitAtFirst (mark : List Char) : List Char → Option (List Char × List Char)
  | [] => none
  | c :: rest =>
    if mark.isPrefixOf (c :: rest) then some ([], (c :: rest).drop mark.length)
    else (splitAtFirst mark rest).map fun (before, after) => (c :: before, after)

/-- The characters of a named property, such as `L`, `Greek`, `gc=Lu` or `sc!=Latin`,
and whether the name asks for their complement. -/
def namedProperty? (name : List Char) : Option (CharSet × Bool) :=
  match splitAtFirst ['!', '='] name with
  | some (key, value) => (propertyValue? key value).map (·, true)
  | none =>
    let pair := (splitAtFirst [':'] name).orElse fun _ => splitAtFirst ['='] name
    match pair with
    | some (key, value) => (propertyValue? key value).map (·, false)
    | none => (property? name).map (·, false)

/-- A class or its complement as the flags in force read it. -/
def foldAndNegate (negated : Bool) (set : CharSet) : Reader CharSet := do
  match (← flags).foldAndNegate? negated set with
  | some set => return set
  | none => refuse

/-- A property escape, from behind its letter. -/
def propertyEscape (negated : Bool) : Reader CharSet := do
  let c ← peek
  let name ←
    if c == '\x7b' then do
      advance
      let name ← takeAllWhile (· != '\x7d')
      let _ ← peek
      bump
      pure name
    else if c == '\\' then refuse
    else do
      bump
      pure [c]
  if (← flags).unicode then
    match namedProperty? name with
    | none => refuse
    | some (set, isComplement) => foldAndNegate (negated != isComplement) set
  else refuse

/-- A class named by a single letter; its capital stands for the complement. -/
def letterClass (letter : Char) : Reader CharSet := do
  let flags ← flags
  let set := flags.letterClass letter.toLower
  if letter.isUpper then
    if flags.unicode then return set.complement else refuse
  else return set

def isMeta (c : Char) : Bool :=
  "\\.+*?()|[]\x7b\x7d^$#&-~".toList.contains c

/-- Characters that stand for themselves behind a backslash. -/
def isEscapable (c : Char) : Bool :=
  isMeta c || c.toNat < 0x80 && !c.isAlphanum && c != '<' && c != '>'

/-- What an escape can stand for. -/
inductive Primitive where
  | literal (c : Char)
  /-- A character given by a code of just two digits, which may mean a byte. -/
  | byte (c : Char)
  | set (set : CharSet)
  | assertion (assertion : Assertion)

/-- The name in braces that may follow a word boundary.  Anything else in braces
is left to be read as a repetition. -/
def wordEdge : Reader WordEdge := do
  let before ← rest
  match before with
  | '\x7b' :: _ =>
    advanceInside
    let isNameChar := fun (c : Char) => c.isAlpha || c == '-'
    if isNameChar (← peek) then
      let name ← takeAllWhile isNameChar
      if (← peek) == '\x7d' then
        bump
        match String.ofList name with
        | "start" => return .start
        | "end" => return .end
        | "start-half" => return .halfStart
        | "end-half" => return .halfEnd
        | _ => refuse
      else refuse
    else
      setRest before
      return .boundary
  | _ => return .boundary

/-- An escape, from its backslash on. -/
def escape : Reader Primitive := do
  bump
  let c ← peek
  let unicode := (← flags).unicode
  match c with
  | 'x' =>
    advanceInside
    if (← peek) == '\x7b' then return .literal (← hexEscape 2)
    else return .byte (← hexEscape 2)
  | 'u' =>
    advanceInside
    return .literal (← hexEscape 4)
  | 'U' =>
    advanceInside
    return .literal (← hexEscape 8)
  | 'p' =>
    advanceInside
    return .set (← propertyEscape false)
  | 'P' =>
    advanceInside
    return .set (← propertyEscape true)
  | 'd' | 's' | 'w' | 'D' | 'S' | 'W' =>
    bump
    return .set (← letterClass c)
  | 'a' => bump; return .literal '\x07'
  | 'f' => bump; return .literal '\x0c'
  | 't' => bump; return .literal '\t'
  | 'n' => bump; return .literal '\n'
  | 'r' => bump; return .literal '\r'
  | 'v' => bump; return .literal '\x0b'
  | 'A' => bump; return .assertion .textStart
  | 'z' => bump; return .assertion .textEnd
  | 'b' =>
    bump
    return .assertion (.word (← wordEdge) unicode)
  | 'B' => bump; return .assertion (.word .noBoundary unicode)
  | '<' => bump; return .assertion (.word .start unicode)
  | '>' => bump; return .assertion (.word .end unicode)
  | _ =>
    if isEscapable c then
      bump
      return .literal c
    else refuse

/-! ## Bracketed classes -/

inductive SetOp where
  | intersection | difference | symmetricDifference

namespace SetOp

def apply : SetOp → CharSet → CharSet → CharSet
  | intersection => CharSet.intersection
  | difference => CharSet.difference
  | symmetricDifference => CharSet.symmetricDifference

end SetOp

/-- What was read of a class: the characters of each item, the last item first, and
the levels of brackets inside the items. -/
structure Members where
  items : List CharSet := []
  levels : Nat := 0

namespace Members

def add (members : Members) (set : CharSet) (levels : Nat) : Members :=
  ⟨set :: members.items, max members.levels levels⟩

/-- The characters of all items.  Several items make a level of their own. -/
def asOperand (members : Members) : CharSet × Nat :=
  match members.items with
  | [] => (.empty, members.levels)
  | [set] => (set, members.levels)
  | sets => (.unions sets, members.levels + 1)

end Members

/-- Combine what stands before an operator with what stands behind it. -/
def applyPending (flags : Flags) :
    Option (SetOp × CharSet × Nat) → CharSet × Nat → CharSet × Nat
  | none, operand => operand
  | some (op, left, leftLevels), (right, rightLevels) =>
    (op.apply (flags.fold left) (flags.fold right), max leftLevels rightLevels + 1)

/-- A class such as `[:alpha:]`, from its bracket on, and whether it is negated;
nothing is read if there is none. -/
def posixClass? (chars : List Char) : Option (CharSet × Bool × List Char) :=
  match chars with
  | '[' :: ':' :: rest =>
    let (negated, rest) :=
      match rest with
      | '^' :: rest => (true, rest)
      | _ => (false, rest)
    let name := rest.takeWhile (· != ':')
    match rest.dropWhile (· != ':') with
    | ':' :: ']' :: rest => (posix? (String.ofList name)).map (·, negated, rest)
    | _ => none
  | _ => none

/-- One character or one escape inside brackets. -/
def classItem : Reader Primitive := do
  let c ← peek
  if c == '\\' then escape
  else
    bump
    return .literal c

/-- A single character inside brackets.  Without Unicode it is an ASCII character. -/
def literalOf : Primitive → Reader Char
  | .literal c | .byte c => do
    if !(← flags).unicode && c.toNat ≥ 0x80 then refuse else return c
  | _ => refuse

def itemClass : Primitive → Reader CharSet
  | .set set => return set
  | item => return .single (← literalOf item)

/-- The first character of those given that counts.  White space is passed over, and
so is the mark of a comment, but not the comment itself. -/
def nextSignificant? : Bool → List Char → Option Char
  | _, [] => none
  | inComment, c :: rest =>
    if Text.isBlank c then nextSignificant? inComment rest
    else if c == '#' && !inComment then nextSignificant? true rest
    else some c

/-- An item inside brackets, or a range between two characters. -/
def classRange : Reader CharSet := do
  let first ← classItem
  skipIgnored
  let next ← peek
  let behind := (← rest).drop 1
  let ahead := if (← flags).ignoreBlank then nextSignificant? false behind else behind.head?
  if next != '-' || ahead == some ']' || ahead == some '-' then itemClass first
  else
    advanceInside
    let last ← classItem
    let first ← literalOf first
    let last ← literalOf last
    if first ≤ last then return .range first last else refuse

/-- Hyphens at the start of a class stand for themselves. -/
def leadingHyphens : Nat → Members → Reader Members
  | 0, members => return members
  | rounds + 1, members => do
    if (← peek) == '-' then
      advanceInside
      leadingHyphens rounds (members.add (.single '-') 0)
    else return members

mutual

/-- A class from its opening bracket to its closing one, with its levels. -/
def bracketed : Nat → Reader (CharSet × Nat)
  | 0 => refuse
  | rounds + 1 => do
    advanceInside
    let negated := (← peek) == '^'
    if negated then advanceInside
    let start ← peek
    let members ← leadingHyphens (← length) {}
    let members ←
      if start == ']' then do
        advanceInside
        pure (members.add (.single ']') 0)
      else pure members
    let (set, levels) ← classItems rounds none members
    return (← foldAndNegate negated set, levels + 1)

/-- The items of a class, after those read already and the pending operator. -/
def classItems : Nat → Option (SetOp × CharSet × Nat) → Members → Reader (CharSet × Nat)
  | 0, _, _ => refuse
  | rounds + 1, pending, members => do
    skipIgnored
    let flags ← flags
    let continueWith := fun (op : SetOp) (mark : String) => do
      let _ ← accept mark
      classItems rounds (some (op, applyPending flags pending members.asOperand)) {}
    let chars ← rest
    match chars with
    | '[' :: _ =>
      match posixClass? chars with
      | some (posix, negated, rest) =>
        setRest rest
        let posix ← foldAndNegate negated posix
        classItems rounds pending (members.add posix 0)
      | none =>
        let (inner, levels) ← bracketed rounds
        classItems rounds pending (members.add inner levels)
    | ']' :: _ =>
      bump
      return applyPending flags pending members.asOperand
    | '&' :: '&' :: _ => continueWith .intersection "&&"
    | '-' :: '-' :: _ => continueWith .difference "--"
    | '~' :: '~' :: _ => continueWith .symmetricDifference "~~"
    | _ =>
      let item ← classRange
      classItems rounds pending (members.add item 0)

end

/-! ## Repetitions -/

/-- A count, with white space around it. -/
def decimal : Reader Nat := do
  setRest ((← rest).dropWhile Text.isBlank)
  let digits ← takeAllWhile Char.isDigit
  let chars ← rest
  setRest (significant (← flags) (chars.dropWhile Text.isBlank))
  let value := digits.foldl (fun n c => 10 * n + (c.toNat - '0'.toNat)) 0
  if digits.isEmpty || value ≥ Nat.pow 2 32 then refuse else return value

/-- Whether a repetition is marked as reluctant, from behind its operator. -/
def reluctant : Reader Bool := do
  match ← rest with
  | '?' :: _ =>
    bump
    return true
  | _ => return false

def repetition (inner : Pattern) (least : Nat) (most : Option Nat) : Reader Pattern := do
  match inner with
  | .empty | .flags => refuse
  | _ =>
    let isReluctant ← reluctant
    return .repetition inner least most (isReluctant == (← flags).swapGreed)

/-- The bounds of a counted repetition, from its opening brace to its closing one. -/
def bounds : Reader (Nat × Option Nat) := do
  advanceInside
  let least ← decimal
  let range ←
    if (← peek) == ',' then do
      advanceInside
      if (← peek) == '\x7d' then pure (least, none)
      else do
        let most ← decimal
        pure (least, some most)
    else pure (least, some least)
  if (← peek) == '\x7d' then
    advance
    if range.2.all (range.1 ≤ ·) then return range else refuse
  else refuse

/-! ## Groups -/

/-- Letters of every edition, the numbers that are written as letters and the signs
that count as letters. -/
def isAlphabetic (c : Char) : Bool :=
  let category := Category.ofChar c
  category.isLetter || category == .letterNumber || Trait.otherAlphabetic.contains c

def isNameChar (isFirst : Bool) (c : Char) : Bool :=
  c == '_' || isAlphabetic c
    || !isFirst && (c == '.' || c == '[' || c == ']' || (Category.ofChar c).isNumber)

/-- The name of a group, up to its closing bracket. -/
def captureName : Reader String := do
  let chars ← rest
  let name := chars.takeWhile (· != '>')
  match chars.dropWhile (· != '>') with
  | [] => refuse
  | _ :: after =>
    match name with
    | [] => refuse
    | first :: others =>
      if isNameChar true first && others.all (isNameChar false) then
        setRest after
        return String.ofList name
      else refuse

def nextCapture : Reader Nat := do
  let index := (← get).captureCount + 1
  modify fun state => { state with captureCount := index }
  return index

def nameCapture (name : String) (index : Nat) : Reader Unit := do
  if ((← get).captureNames.lookup name).isSome then refuse
  else modify fun state => { state with captureNames := (name, index) :: state.captureNames }

/-- Letters that set flags, up to a colon or a closing parenthesis.  A letter
occurs once at most, and a hyphen turns off what follows it. -/
def flagLetters (value : Bool) (seen : List Char) (afterHyphen : Bool) :
    Nat → Flags → Reader (Flags × List Char)
  | 0, _ => refuse
  | rounds + 1, flags => do
    let c ← peek
    if c == ':' || c == ')' then
      if afterHyphen then refuse else return (flags, seen)
    else if seen.contains c then refuse
    else
      bump
      if c == '-' then flagLetters false (c :: seen) true rounds flags
      else
        match flags.ofLetter? value c with
        | some flags => flagLetters value (c :: seen) false rounds flags
        | none => refuse

/-- What follows an opening parenthesis. -/
inductive GroupStart where
  | capture (index : Nat)
  | plain (flags : Flags)
  | setFlags (flags : Flags)

def groupStart : Reader GroupStart := do
  advance
  let chars ← rest
  let isLookAround := ["?=", "?!", "?<=", "?<!"].any fun mark =>
    mark.toList.isPrefixOf chars
  let isNamed := ["?P<", "?<"].any fun mark => mark.toList.isPrefixOf chars
  if isLookAround then refuse
  else if isNamed then
    setRest ((chars.dropWhile (· != '<')).drop 1)
    let index ← nextCapture
    let name ← captureName
    nameCapture name index
    return .capture index
  else if ← accept "?" then
    let (flags, seen) ← flagLetters true [] false ((← length) + 1) (← flags)
    let closing ← peek
    bump
    if closing == ')' then
      if seen.isEmpty then refuse else return .setFlags flags
    else return .plain flags
  else return .capture (← nextCapture)

/-! ## Patterns -/

def withFlags (flags : Flags) : Reader Unit :=
  modify fun state => { state with flags }

/-- A primitive outside brackets.  Without Unicode a two-digit code is a byte, and
the bytes beyond ASCII are no characters. -/
def primitivePattern : Primitive → Reader Pattern
  | .literal c => return .chars ((← flags).char c) 0
  | .byte c => do
    let flags ← flags
    if !flags.unicode && c.toNat ≥ 0x80 then refuse else return .chars (flags.char c) 0
  | .set set => return .chars set 0
  | .assertion assertion => return .assertion assertion

/-- An escape, a dot, an anchor or a character. -/
def primitive : Reader Pattern := do
  let c ← peek
  let flags ← flags
  match c with
  | '\\' => primitivePattern (← escape)
  | '.' =>
    bump
    if flags.unicode then return .chars flags.dot 0 else refuse
  | '^' =>
    bump
    return .assertion flags.lineStart
  | '$' =>
    bump
    return .assertion flags.lineEnd
  | _ =>
    bump
    primitivePattern (.literal c)

/-- The alternatives of a pattern or a group: finished ones and the parts of the
current one, both in reverse.  Reading stops at the end or before a closing
parenthesis.  Every round takes a character, so the length of the pattern bounds
the rounds. -/
def alternatives : Nat → List Pattern → List Pattern → Reader Pattern
  | 0, _, _ => refuse
  | rounds + 1, finished, parts => do
    skipIgnored
    let repeatLast := fun (least : Nat) (most : Option Nat) =>
      match parts with
      | [] => refuse
      | last :: others => do
        let node ← repetition last least most
        alternatives rounds finished (node :: others)
    let finish := fun (_ : Unit) =>
      let current := Pattern.ofParts parts.reverse
      if finished.isEmpty then current else .alternation (current :: finished).reverse
    match ← rest with
    | [] => return finish ()
    | ')' :: _ => return finish ()
    | '|' :: _ =>
      bump
      alternatives rounds (Pattern.ofParts parts.reverse :: finished) []
    | '(' :: _ =>
      let outer ← flags
      match ← groupStart with
      | .setFlags flags =>
        withFlags flags
        alternatives rounds finished (.flags :: parts)
      | .plain flags =>
        withFlags flags
        let inner ← alternatives rounds [] []
        if (← peek) == ')' then
          bump
          withFlags outer
          alternatives rounds finished (.group none inner :: parts)
        else refuse
      | .capture index =>
        let inner ← alternatives rounds [] []
        if (← peek) == ')' then
          bump
          withFlags outer
          alternatives rounds finished (.group (some index) inner :: parts)
        else refuse
    | '[' :: _ =>
      let (set, levels) ← bracketed (← length)
      alternatives rounds finished (.chars set levels :: parts)
    | '?' :: _ =>
      bump
      repeatLast 0 (some 1)
    | '*' :: _ =>
      bump
      repeatLast 0 none
    | '+' :: _ =>
      bump
      repeatLast 1 none
    | '\x7b' :: _ =>
      match parts with
      | [] => refuse
      | _ =>
        let (least, most) ← bounds
        repeatLast least most
    | _ =>
      let node ← primitive
      alternatives rounds finished (node :: parts)

/-- Patterns may be nested this deep. -/
def maxDepth : Nat := 250

/-- A whole pattern: its tree, the number of its groups and their names. -/
def pattern : Reader Pattern := do
  let node ← alternatives ((← length) + 1) [] []
  if (← rest).isEmpty && node.depth ≤ maxDepth then return node else refuse

end Reader

end Regex
end Hati
