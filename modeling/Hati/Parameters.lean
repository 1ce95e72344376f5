import Hati.Evaluator

namespace Hati

/-!
# Passing arguments

Parameters take the arguments from the left: one each, or several for a rest.  A
default is evaluated only when the arguments have run out, and sees the
parameters before it.
-/

namespace Evaluator

/-- Bind the remaining parameters to the remaining arguments. -/
def bindRemaining (ev : Evaluator) (function : String) (scope : FrameRef) (span : Span) :
    List Param → List Value → Run Unit
  | [], _ => pure ()
  | ⟨name, .rest count⟩ :: params, args =>
    if args.length < count then Run.fail (.restUnfilled name function count args.length) span
    else do
      let taken := if count = 0 then args.length else count
      let rest ← Run.newList (args.take taken).toArray
      Run.bind scope name { value := rest }
      bindRemaining ev function scope span params (args.drop taken)
  | ⟨name, _⟩ :: params, value :: args => do
    Run.bind scope name { value }
    bindRemaining ev function scope span params args
  | ⟨name, .optional default⟩ :: params, [] => do
    let value ← ev.eval default scope
    Run.bind scope name { value }
    bindRemaining ev function scope span params []
  | ⟨name, .required⟩ :: _, [] => Run.fail (.argumentMissing name function) span

/-- Bind the parameters of a function in the scope of its call. -/
def bindParameters (ev : Evaluator) (decl : FunctionDecl) (args : List Value)
    (scope : FrameRef) (span : Span) : Run Unit :=
  if args.length < decl.minArity then
    Run.fail (.tooFewArguments decl.displayName decl.minArity args.length) span
  else ev.bindRemaining decl.displayName scope span decl.params args

end Evaluator

end Hati
