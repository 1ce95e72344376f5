import Hati.Statement

namespace Hati

/-!
# Jumps

A break or a continue is meant for the loop around it.  One that stands outside all
loops strays: it leaves the statement that it stands in, and maybe the function or the
program around that.  Which jumps stray in a statement can be read off its text.
-/

/-- A statement that is meant for the loop around it. -/
inductive Jump where
  | «break» | «continue»
deriving DecidableEq, Repr

namespace Jump

/-- The signal that a jump ends a statement with. -/
def signal : Jump → Signal
  | «break» => .broke
  | «continue» => .continued

end Jump

/-- If the signal is a jump, then it is one with the property. -/
def Signal.JumpsBy (signal : Signal) (property : Jump → Prop) : Prop :=
  ∀ jump : Jump, signal = jump.signal → property jump

namespace Signal.JumpsBy

variable {signal : Signal} {property weaker : Jump → Prop}

theorem proceed : Signal.proceed.JumpsBy property := by
  intro jump isJump
  cases jump <;> cases isJump

theorem broke (holds : property .break) : Signal.broke.JumpsBy property := by
  intro jump isJump
  cases jump with
  | «break» => exact holds
  | «continue» => cases isJump

theorem continued (holds : property .continue) : Signal.continued.JumpsBy property := by
  intro jump isJump
  cases jump with
  | «break» => cases isJump
  | «continue» => exact holds

theorem returned {value : Value} : (Signal.returned value).JumpsBy property := by
  intro jump isJump
  cases jump <;> cases isJump

theorem mono (jumps : signal.JumpsBy property) (implies : ∀ jump, property jump → weaker jump) :
    signal.JumpsBy weaker :=
  fun jump isJump => implies jump (jumps jump isJump)

end Signal.JumpsBy

/-- A jump stands in the statement outside the bodies of its loops, of its functions
and of its classes.  A counting loop also executes a statement in front of it and one
after each pass; how these end is not looked at, so a jump there goes nowhere. -/
inductive Stmt.Strays : Jump → Stmt → Prop where
  | «break» (span : Span) : Strays .break ⟨.break, span⟩
  | «continue» (span : Span) : Strays .continue ⟨.continue, span⟩
  | block {jump : Jump} {body : List Stmt} {inner : Stmt} {span : Span} (member : inner ∈ body)
    (strays : Strays jump inner) : Strays jump ⟨.block body, span⟩
  | thenBranch {jump : Jump} {condition : Expr} {thenBranch : List Stmt}
    {elseBranch : Option (List Stmt)} {inner : Stmt} {span : Span} (member : inner ∈ thenBranch)
    (strays : Strays jump inner) : Strays jump ⟨.if condition thenBranch elseBranch, span⟩
  | elseBranch {jump : Jump} {condition : Expr} {thenBranch body : List Stmt} {inner : Stmt}
    {span : Span} (member : inner ∈ body) (strays : Strays jump inner) :
    Strays jump ⟨.if condition thenBranch (some body), span⟩

/-- A jump strays in some statement of the list. -/
def StrayAmong (body : List Stmt) (jump : Jump) : Prop :=
  ∃ stmt ∈ body, stmt.Strays jump

namespace Cause

/-- A jump was not meant for any loop. -/
def isStrayJump : Cause → Bool
  | strayJump | strayJumpIn _ => true
  | _ => false

end Cause

end Hati
