import Hati.Regex.Footprint
import Hati.Regex.Reader

namespace Hati
namespace Regex

/-!
# Compiled patterns

An expression is run as a list of instructions.  Where it leaves a choice, the
instruction names both continuations, the preferred one first, so that the first way
to match that is found is the one the pattern prefers.
-/

inductive Instruction where
  | char (c : Char)
  | oneOf (set : CharSet)
  | check (assertion : Assertion)
  /-- Go on at either address; the first is preferred. -/
  | fork (first second : Nat)
  | jump (address : Nat)
  /-- Note the current position. -/
  | save (slot : Nat)
  | accept

/-- The instructions written so far. -/
abbrev Code := Array Instruction

/-- A choice between going on and leaving, in the order of a greedy or a
reluctant repetition. -/
def Instruction.choice (greedy : Bool) (go leave : Nat) : Instruction :=
  if greedy then .fork go leave else .fork leave go

namespace Code

/-- Leave room for an instruction. -/
def reserve (code : Code) : Code :=
  code.push .accept

/-- Write something `count` times. -/
def times (write : Code → Code) : Nat → Code → Code
  | 0, code => code
  | count + 1, code => times write count (write code)

/-- Run what is written or pass over it. -/
def optional (greedy : Bool) (write : Code → Code) (code : Code) : Code :=
  let here := code.size
  let code := write code.reserve
  code.setIfInBounds here (.choice greedy (here + 1) code.size)

/-- Run what is written once, and again for as long as wanted. -/
def oneOrMore (greedy : Bool) (write : Code → Code) (code : Code) : Code :=
  let here := code.size
  let code := write code
  code.push (.choice greedy here (code.size + 1))

/-- Run what is written any number of times.  Something that can match nothing at all
is run once or more, or not at all, so that the preferred way through it comes first. -/
def zeroOrMore (greedy consumes : Bool) (write : Code → Code) (code : Code) : Code :=
  let here := code.size
  if consumes then optional greedy (fun inner => (write inner).push (.jump here)) code
  else optional greedy (oneOrMore greedy write) code

/-- Set the instructions at the given addresses, each made from its address. -/
def fill (make : Nat → Instruction) (addresses : List Nat) (code : Code) : Code :=
  addresses.foldl (fun code address => code.setIfInBounds address (make address)) code

/-- Write something that can be left before each of `count` copies, and the addresses
of the choices. -/
def chain (write : Code → Code) : Nat → List Nat → Code → List Nat × Code
  | 0, choices, code => (choices, code)
  | count + 1, choices, code => chain write count (code.size :: choices) (write code.reserve)

/-- Run what is written at most `count` times; every choice to stop leaves at the same
address. -/
def atMost (greedy : Bool) (write : Code → Code) (count : Nat) (code : Code) : Code :=
  let (choices, code) := chain write count [] code
  let leave := code.size
  code.fill (fun here => .choice greedy (here + 1) leave) choices

def repetition (write : Code → Code) (consumes greedy : Bool) : Nat → Option Nat → Code → Code
  | 0, some 1, code => code.optional greedy write
  | 0, none, code => code.zeroOrMore greedy consumes write
  | least + 1, none, code => (times write least code).oneOrMore greedy write
  | least, some most, code => (times write least code).atMost greedy write (most - least)

end Code

namespace Expr

mutual

/-- Write the code of an expression behind code that runs on into it. -/
def compile : Expr → Code → Code
  | empty, code => code
  | literal text, code => text.foldl (fun code c => code.push (.char c)) code
  | chars set, code => code.push (.oneOf set)
  | assertion a, code => code.push (.check a)
  | capture index inner, code =>
    (inner.compile (code.push (.save (2 * index)))).push (.save (2 * index + 1))
  | concat parts, code => compileParts parts code
  | alternation branches, code => compileBranches branches [] code
  | repetition inner least most greedy, code =>
    Code.repetition inner.compile inner.consumes greedy least most code

def compileParts : List Expr → Code → Code
  | [], code => code
  | part :: parts, code => compileParts parts (part.compile code)

/-- Alternatives in order of preference, given the addresses of the jumps behind
those written already. -/
def compileBranches : List Expr → List Nat → Code → Code
  | [], _, code => code
  | [branch], jumps, code =>
    let code := branch.compile code
    let leave := code.size
    code.fill (fun _ => .jump leave) jumps
  | branch :: branches, jumps, code =>
    let here := code.size
    let code := branch.compile code.reserve
    let leave := code.size
    let code := code.reserve.setIfInBounds here (.fork (here + 1) (leave + 1))
    compileBranches branches (leave :: jumps) code

end

end Expr

end Regex

/-- A pattern that is ready to be searched for. -/
structure Regex where
  program : Array Regex.Instruction
  captureNames : List (String × Nat)

namespace Regex

/-- Read and compile a pattern; texts that are no patterns have none. -/
def ofText? (flags : Flags) (text : String) : Option Regex := do
  let (pattern, state) ← Reader.pattern.run { rest := text.toList, flags }
  let expr := Expr.ofPattern pattern
  if expr.fits then
    let code := ((Expr.capture 0 expr).compile #[]).push .accept
    some { program := code, captureNames := state.captureNames }
  else none

end Regex
end Hati
