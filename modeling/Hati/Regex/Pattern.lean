import Hati.Regex.CharClass

namespace Hati
namespace Regex

/-!
# Patterns

The tree of a pattern as it is written.  Flags are already worked into it: case,
lines and the meaning of the dot are part of the classes and the assertions.
-/

/-- Assertions about words look at the characters on both sides of a position. -/
inductive WordEdge where
  | boundary | noBoundary | start | «end» | halfStart | halfEnd
deriving DecidableEq, Repr

inductive Assertion where
  | textStart | textEnd
  | lineStart | lineEnd
  /-- Lines that end with a carriage return, a line feed or both. -/
  | returnLineStart | returnLineEnd
  /-- Words of all scripts, or of ASCII only. -/
  | word (edge : WordEdge) (unicode : Bool)
deriving DecidableEq, Repr

namespace Flags

def lineStart (flags : Flags) : Assertion :=
  if !flags.multiLine then .textStart
  else if flags.returnLines then .returnLineStart
  else .lineStart

def lineEnd (flags : Flags) : Assertion :=
  if !flags.multiLine then .textEnd
  else if flags.returnLines then .returnLineEnd
  else .lineEnd

end Flags

inductive Pattern where
  | empty
  /-- A change of flags, which matches nothing and cannot be repeated. -/
  | flags
  /-- One character of a class, which was written with so many levels of brackets. -/
  | chars (set : CharSet) (levels : Nat)
  | assertion (assertion : Assertion)
  | group (capture : Option Nat) (inner : Pattern)
  | concat (parts : List Pattern)
  | alternation (branches : List Pattern)
  | repetition (inner : Pattern) (least : Nat) (most : Option Nat) (greedy : Bool)

namespace Pattern

mutual

/-- How deep groups, repetitions, sequences, alternatives and brackets are nested. -/
def depth : Pattern → Nat
  | empty => 0
  | flags => 0
  | chars _ levels => levels
  | assertion _ => 0
  | group _ inner => inner.depth + 1
  | concat parts => depthOfAll parts + 1
  | alternation branches => depthOfAll branches + 1
  | repetition inner _ _ _ => inner.depth + 1

def depthOfAll : List Pattern → Nat
  | [] => 0
  | pattern :: patterns => max pattern.depth (depthOfAll patterns)

end

/-- A sequence of parts. -/
def ofParts : List Pattern → Pattern
  | [] => empty
  | [part] => part
  | parts => concat parts

end Pattern

end Regex
end Hati
