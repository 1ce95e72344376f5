import Hati.Interpreter

namespace Hati

/-!
# Chains and their callees

A chain is a head with links around it: members, elements and calls.  The rules follow
a link in two ways.  Within a chain the value is all that counts; but a method call
follows the last link of its callee itself, since it needs to know the object that the
method was read from.  Here both ways are put down to one, the evaluation of a callee,
so that whatever is shown of callees holds of chains by construction.
-/

/-- One link of a chain: the expression it goes on from, and whether it is optional. -/
structure Link where
  base : Expr
  isOptional : Bool

namespace Expr

/-- The links of a chain, the outermost one first. -/
def links : Expr → List Link
  | ⟨.member object _ isOptional, _⟩ => ⟨object, isOptional⟩ :: object.links
  | ⟨.index object _ isOptional, _⟩ => ⟨object, isOptional⟩ :: object.links
  | ⟨.call callee _ isOptional, _⟩ => ⟨callee, isOptional⟩ :: callee.links
  | _ => []

/-- Induction over a chain: link by link outwards, from the head that is no link. -/
theorem chain_induction {motive : Expr → Prop}
    (member : ∀ object property isOptional span, motive object →
      motive ⟨.member object property isOptional, span⟩)
    (index : ∀ object position isOptional span, motive object →
      motive ⟨.index object position isOptional, span⟩)
    (call : ∀ callee arguments isOptional span, motive callee →
      motive ⟨.call callee arguments isOptional, span⟩)
    (head : ∀ expr : Expr, expr.links = [] → motive expr) (expr : Expr) : motive expr := by
  fun_induction links expr with
  | case1 object property isOptional span ih => exact member object property isOptional span ih
  | case2 object position isOptional span ih => exact index object position isOptional span ih
  | case3 callee arguments isOptional span ih => exact call callee arguments isOptional span ih
  | case4 expr notMember notIndex notCall =>
      apply head
      rw [links]
      all_goals assumption

end Expr

namespace Evaluator

variable {ev : Evaluator} {scope : FrameRef}

/-- What a callee comes to, with the receiver of the call. -/
def callee (ev : Evaluator) (scope : FrameRef) : Expr → Run (Option (Value × Option Value))
  | ⟨.member object property isOptional, span⟩ => do
    match linked isOptional (← ev.chain scope object) with
    | none => pure none
    | some target => return some (← ev.readMember target property scope span, callReceiver target)
  | ⟨.index object index isOptional, span⟩ => do
    match linked isOptional (← ev.chain scope object) with
    | none => pure none
    | some target =>
      let position ← ev.eval index scope
      return some (← ev.readIndex target position scope span, callReceiver target)
  | expr => return (← ev.chain scope expr).map (·, none)

/-- A chain comes to what it would come to as a callee. -/
theorem chain_eq_callee (expr : Expr) :
    ev.chain scope expr = Option.map Prod.fst <$> ev.callee scope expr := by
  rcases expr with ⟨node, span⟩
  cases node with
  | member object property isOptional =>
      rw [chain, callee, map_bind]
      apply bind_congr
      intro reached
      cases linked isOptional reached <;> simp
  | index object index isOptional =>
      rw [chain, callee, map_bind]
      apply bind_congr
      intro reached
      cases linked isOptional reached <;> simp
  | _ => simp [callee, Function.comp_def]

/-- A call that is called in turn gives that call no receiver. -/
theorem callee_call (inner : Expr) (args : List Expr) (isOptional : Bool) (span : Span) :
    ev.callee scope ⟨.call inner args isOptional, span⟩ = (do
      let reached ← ev.chain scope ⟨.call inner args isOptional, span⟩
      return reached.map (·, none)) :=
  rfl

/-- A call calls what its callee comes to, for the receiver that comes with it. -/
theorem chain_call (inner : Expr) (args : List Expr) (isOptional : Bool) (span : Span) :
    ev.chain scope ⟨.call inner args isOptional, span⟩ = (do
      match ← ev.callee scope inner with
      | none => pure none
      | some (function, receiver) =>
        ev.callLink scope function receiver args isOptional span) := by
  rcases inner with ⟨node, calleeSpan⟩
  cases node with
  | member object property isOptionalMember =>
      rw [chain, callee, bind_assoc]
      apply bind_congr
      intro reached
      cases linked isOptionalMember reached <;> simp
  | index object index isOptionalIndex =>
      rw [chain, callee, bind_assoc]
      apply bind_congr
      intro reached
      cases linked isOptionalIndex reached <;> simp
  | _ =>
      rw [chain, callee, bind_assoc]
      · apply bind_congr
        intro reached
        cases reached <;> rfl
      all_goals intros; simp_all

/-- What is no link is evaluated as it is, and gives a callee no receiver. -/
theorem callee_of_links_eq_nil {expr : Expr} (single : expr.links = []) :
    ev.callee scope expr = (do
      let reached ← (do return some (← ev.eval expr scope))
      return reached.map (·, none)) := by
  rcases expr with ⟨node, span⟩
  cases node with
  | member object property isOptional => cases single
  | index object index isOptional => cases single
  | call callee arguments isOptional => cases single
  | _ => rfl

end Evaluator

end Hati
