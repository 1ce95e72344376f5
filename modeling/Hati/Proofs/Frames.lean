import Hati.Interpreter
import Hati.Proofs.Effect

namespace Hati

/-!
# Frames that come with bindings

The scope of a call binds the receiver before anything else happens in it, and the scope
of a class's own code binds the receiver and the class.  Nobody sees these frames without
their bindings, so each of them counts as one allocation.
-/

/-- The frame of a call: it binds the receiver, inside the scope of the function. -/
def Frame.ofCall (closure : FrameRef) (receiver : Option Value) : Frame where
  parent := some closure
  bindings := ⟨receiver.toList.map fun value => (receiverName, { value })⟩

namespace Heap

/-- The frame of a class's own code: it binds the receiver and the class that the code
belongs to, inside the scope of that class. -/
def receiverFrame (heap : Heap) (owner : ClassRef) (receiver : Value) : Frame where
  parent := some (heap.class owner).scope
  bindings := ⟨[(receiverName, { value := receiver }), (ownerName, { value := .class owner })]⟩

end Heap

namespace Run

/-- The scope of a call, before any parameter is bound in it. -/
def enterCall (closure : FrameRef) (receiver : Option Value) : Run FrameRef := do
  let scope ← newScope closure
  if let some value := receiver then bind scope receiverName { value }
  pure scope

theorem enterCall_apply (closure : FrameRef) (receiver : Option Value) (machine : Machine) :
    enterCall closure receiver machine =
      .ok (machine.heap.allocFrame (.ofCall closure receiver)).1
        { machine with heap := (machine.heap.allocFrame (.ofCall closure receiver)).2 } := by
  cases receiver with
  | none => rfl
  | some value =>
      exact congrArg (fun heap => EStateM.Result.ok _ { machine with heap })
        (Heap.bind_allocFrame machine.heap { parent := some closure } receiverName { value })

theorem receiverScope_apply (owner : ClassRef) (receiver : Value) (machine : Machine) :
    receiverScope owner receiver machine =
      .ok (machine.heap.allocFrame (machine.heap.receiverFrame owner receiver)).1
        { machine with
          heap := (machine.heap.allocFrame (machine.heap.receiverFrame owner receiver)).2 } := by
  have calls := Heap.bind_allocFrame machine.heap
    { parent := some (machine.heap.class owner).scope }
    receiverName { value := receiver }
  have owns := Heap.bind_allocFrame machine.heap (.ofCall (machine.heap.class owner).scope
    (some receiver)) ownerName { value := .class owner }
  refine congrArg (fun heap => EStateM.Result.ok _ { machine with heap }) ?_
  exact (congrArg (Heap.bind · _ ownerName { value := .class owner }) calls).trans owns

end Run

namespace Evaluator

/-- What a function does once the scope of its call is there. -/
def runBody (ev : Evaluator) (name : String) (decl : FunctionDecl) (args : List Value)
    (scope : FrameRef) (span : Span) : Run Value := do
  ev.bindParameters decl args scope span
  match ← ev.block scope decl.body with
  | .returned value => pure value
  | .proceed => pure .null
  | .broke | .continued => Run.fail (.strayJumpIn name) decl.span

theorem activate_eq (ev : Evaluator) (name : String) (decl : FunctionDecl) (closure : FrameRef)
    (receiver : Option Value) (args : List Value) (span : Span) :
    ev.activate name decl closure receiver args span = (do
      Run.note (.called name args.length)
      let scope ← Run.enterCall closure receiver
      ev.runBody name decl args scope span) := by
  cases receiver <;> rfl

end Evaluator

end Hati
