import Hati.Regex.Pattern

namespace Hati
namespace Regex

/-!
# Regular expressions

A pattern is searched for as a regular expression in which everything that makes no
difference is gone: groups that capture nothing, empty parts, sequences inside
sequences, repetitions that repeat nothing.  Neighbouring characters are joined to
texts, and alternatives that are single characters to classes.  The functions that
build an expression keep it in this form.
-/

inductive Expr where
  | empty
  /-- A text of at least one character. -/
  | literal (text : List Char)
  /-- One character of a set that is not a single character. -/
  | chars (set : CharSet)
  | assertion (assertion : Assertion)
  | capture (index : Nat) (inner : Expr)
  | concat (parts : List Expr)
  | alternation (branches : List Expr)
  | repetition (inner : Expr) (least : Nat) (most : Option Nat) (greedy : Bool)
deriving BEq

namespace Expr

/-! ## Lengths -/

mutual

/-- The least number of characters of a match, if anything can match. -/
def minLength : Expr → Option Nat
  | empty => some 0
  | literal text => some text.length
  | chars set => if set.ranges.isEmpty then none else some 1
  | assertion _ => some 0
  | capture _ inner => inner.minLength
  | concat parts => minLengthOfParts parts
  | alternation branches => minLengthOfBranches branches
  | repetition inner least _ _ => inner.minLength.map (least * ·)

def minLengthOfParts : List Expr → Option Nat
  | [] => some 0
  | part :: parts =>
    match part.minLength, minLengthOfParts parts with
    | some a, some b => some (a + b)
    | _, _ => none

/-- Nothing is known of alternatives if one of them cannot match. -/
def minLengthOfBranches : List Expr → Option Nat
  | [] => none
  | [branch] => branch.minLength
  | branch :: branches =>
    match branch.minLength, minLengthOfBranches branches with
    | some a, some b => some (min a b)
    | _, _ => none

end

/-- Whether every match has at least one character. -/
def consumes (expr : Expr) : Bool :=
  expr.minLength.any (0 < ·)

mutual

/-- Whether every match is empty. -/
def isEmptyOnly : Expr → Bool
  | empty => true
  | literal text => text.isEmpty
  | chars _ => false
  | assertion _ => true
  | capture _ inner => inner.isEmptyOnly
  | concat parts => allEmptyOnly parts
  | alternation branches => allEmptyOnly branches
  | repetition inner _ most _ => most.isSome && inner.isEmptyOnly

def allEmptyOnly : List Expr → Bool
  | [] => true
  | expr :: exprs => expr.isEmptyOnly && allEmptyOnly exprs

end

/-! ## Anchors -/

mutual

/-- Whether every match starts where the text starts. -/
def isStartAnchored : Expr → Bool
  | assertion a => a == .textStart
  | capture _ inner => inner.isStartAnchored
  | concat parts => firstIsAnchored parts
  | alternation branches => allStartAnchored branches
  | repetition inner least _ _ => 0 < least && inner.isStartAnchored
  | _ => false

def firstIsAnchored : List Expr → Bool
  | [] => false
  | part :: parts => part.isStartAnchored || part.isEmptyOnly && firstIsAnchored parts

def allStartAnchored : List Expr → Bool
  | [] => true
  | branch :: branches => branch.isStartAnchored && allStartAnchored branches

end

mutual

/-- Whether every match ends where the text ends. -/
def isEndAnchored : Expr → Bool
  | assertion a => a == .textEnd
  | capture _ inner => inner.isEndAnchored
  | concat parts => lastIsAnchored parts
  | alternation branches => allEndAnchored branches
  | repetition inner least _ _ => 0 < least && inner.isEndAnchored
  | _ => false

/-- Of a sequence, the last part is decisive, and those before it as long as all
behind them are empty. -/
def lastIsAnchored : List Expr → Bool
  | [] => false
  | part :: parts => lastIsAnchored parts || part.isEndAnchored && allEmptyOnly parts

def allEndAnchored : List Expr → Bool
  | [] => true
  | branch :: branches => branch.isEndAnchored && allEndAnchored branches

end

/-! ## Building expressions -/

def ofSet (set : CharSet) : Expr :=
  match set.only? with
  | some c => literal [c]
  | none => chars set

/-- Put a part before those of a sequence; a text is joined to a text. -/
def prepend (part : Expr) (parts : List Expr) : List Expr :=
  match part, parts with
  | empty, _ => parts
  | literal a, literal b :: rest => literal (a ++ b) :: rest
  | _, _ => part :: parts

/-- The parts of an expression as part of a sequence. -/
def partsOf : Expr → List Expr
  | concat parts => parts
  | expr => [expr]

def sequence (exprs : List Expr) : Expr :=
  match (exprs.flatMap partsOf).foldr prepend [] with
  | [] => empty
  | [part] => part
  | parts => concat parts

/-- Repeat an expression.  What is always empty is not repeated more than once. -/
def «repeat» (inner : Expr) (least : Nat) (most : Option Nat) (greedy : Bool) : Expr :=
  let isEmptyOnly := inner.isEmptyOnly
  let least := if isEmptyOnly then min least 1 else least
  let most := if isEmptyOnly then some (min (most.getD 1) 1) else most
  if most == some 0 then empty
  else if least == 1 && most == some 1 then inner
  else repetition inner least most greedy

/-- The branches of an expression as a branch of alternatives. -/
def branchesOf : Expr → List Expr
  | alternation branches => branches
  | expr => [expr]

/-- The character of an expression that is just one. -/
def singleChar? : Expr → Option Char
  | literal [c] => some c
  | _ => none

def set? : Expr → Option CharSet
  | chars set => some set
  | _ => none

/-- How many parts two sequences have in common at their start. -/
def commonCount : List Expr → List Expr → Nat
  | a :: as, b :: bs => if a == b then commonCount as bs + 1 else 0
  | _, _ => 0

/-- How many parts all branches have in common at their start, if all are sequences. -/
def commonPrefix : List Expr → Nat
  | concat first :: others =>
    others.foldl (fun count branch =>
      match branch with
      | concat parts => min count (commonCount first parts)
      | _ => 0) first.length
  | _ => 0

mutual

/-- How many expressions an expression is built from. -/
def nodeCount : Expr → Nat
  | capture _ inner => inner.nodeCount + 1
  | concat parts => nodeCountOfAll parts + 1
  | alternation branches => nodeCountOfAll branches + 1
  | repetition inner _ _ _ => inner.nodeCount + 1
  | _ => 1

def nodeCountOfAll : List Expr → Nat
  | [] => 0
  | expr :: exprs => expr.nodeCount + nodeCountOfAll exprs

end

/-- Alternatives of branches.  Single characters and classes become one class, and
parts that all branches start with are put in front.  Every round shortens the
branches. -/
def choiceWithin : Nat → List Expr → Expr
  | rounds, exprs =>
    match exprs.flatMap branchesOf with
    | [] => chars .empty
    | [branch] => branch
    | branches =>
      match branches.mapM singleChar?, branches.mapM set? with
      | some singles, _ => ofSet (.ofChars singles)
      | none, some sets => ofSet (.unions sets)
      | none, none =>
        match rounds, commonPrefix branches with
        | rounds + 1, count + 1 =>
          let front := ((branches.head?.map partsOf).getD []).take (count + 1)
          let rests := branches.map fun branch => sequence ((partsOf branch).drop (count + 1))
          sequence (front ++ [choiceWithin rounds rests])
        | _, _ => alternation branches

def choice (exprs : List Expr) : Expr :=
  choiceWithin (nodeCountOfAll exprs) exprs

mutual

/-- The expression of a pattern. -/
def ofPattern : Pattern → Expr
  | .empty => empty
  | .flags => empty
  | .chars set _ => ofSet set
  | .assertion a => assertion a
  | .group none inner => ofPattern inner
  | .group (some index) inner => capture index (ofPattern inner)
  | .concat parts => sequence (ofPatterns parts)
  | .alternation branches => choice (ofPatterns branches)
  | .repetition inner least most greedy => (ofPattern inner).repeat least most greedy

def ofPatterns : List Pattern → List Expr
  | [] => []
  | pattern :: patterns => ofPattern pattern :: ofPatterns patterns

end

end Expr

end Regex
end Hati
