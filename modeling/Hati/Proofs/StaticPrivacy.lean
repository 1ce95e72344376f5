import Hati.Property
import Hati.Proofs.Sessions

namespace Hati

/-!
# Who is inside the static side of a class

The static side of a class keeps its private properties to code that runs for the
static side itself or for an instance of the class.  What counts as an instance is
told by the link to the class, which is a property like others.  An instance gets it
when it is made, but a literal, a field or an assignment that puts the class under
the name of the link gives it to any object, and nothing else does.

The histories that lead to a machine therefore settle who may be inside: code with a
receiver that was made as an instance, and the journal tells how many were made, or
code with a receiver that was linked by a write.
-/

namespace Deed

/-- The class that an instance was made of. -/
def constructed? (heap : Heap) : Deed → Option String
  | made _ cls => some (heap.class cls).name
  | linked _ _ => none

theorem mem_constructed (heap : Heap) {deeds : List Deed} {object : ObjectRef} {cls : ClassRef}
    (isMade : .made object cls ∈ deeds) :
    (heap.class cls).name ∈ deeds.filterMap (constructed? heap) :=
  List.mem_filterMap.mpr ⟨_, isMade, rfl⟩

theorem constructed?_ofWrite (heap : Heap) {object : ObjectRef} {key : String} {value : Value} :
    (ofWrite object key value).filterMap (constructed? heap) = [] := by
  unfold ofWrite
  split
  · split <;> rfl
  · rfl

end Deed

theorem Heap.Step.constructs_none {heap after : Heap} {deeds : List Deed}
    (step : heap.Step deeds after) (later : Heap) :
    deeds.filterMap (Deed.constructed? later) = [] := by
  cases step with
  | write => exact Deed.constructed?_ofWrite later
  | _ => rfl

namespace Machine

/-- The classes of the instances that the journal tells of, in order. -/
def constructions (machine : Machine) : List String :=
  machine.journal.toList.filterMap Event.constructed?

variable {machine after : Machine} {deeds : List Deed}

/-- The journal gets a note of each instance that is made, and no other. -/
theorem Step.constructions (step : machine.Step deeds after) (formed : machine.WellFormed)
    {later : Heap} (grown : after.heap.Grows later) :
    after.constructions = machine.constructions ++ deeds.filterMap (Deed.constructed? later) := by
  cases step with
  | heap step =>
      rw [step.constructs_none later, List.append_nil]
      rfl
  | @make cls span held =>
      have same : later.class cls = machine.heap.class cls :=
        ((instanceHeap_keeps formed.heap held span).1.trans grown).declared cls held
      simp [Machine.constructions, Event.constructed?, Deed.constructed?, same]
  | note otherwise => simp [Machine.constructions, otherwise]
  | _ => exact (List.append_nil _).symm

theorem Trace.constructions (trace : machine.Trace deeds after) (formed : machine.WellFormed) :
    after.constructions =
      machine.constructions ++ deeds.filterMap (Deed.constructed? after.heap) := by
  induction trace with
  | refl => exact (List.append_nil _).symm
  | @step machine middle after deeds more first rest ih =>
      obtain ⟨-, well, -⟩ := first.keeps formed
      have grown := (rest.keeps well).1
      rw [List.filterMap_append, ← List.append_assoc, ← first.constructions formed grown]
      exact ih well

end Machine

/-! ## Inside the static side -/

namespace Heap

variable {heap : Heap} {scope : FrameRef} {object : ObjectRef}

/-- What the code of a scope can do with an object that is kept to its owner. -/
inductive Opens (heap : Heap) (scope : FrameRef) (object : ObjectRef) : Prop where
  | inside (internal : heap.isInternal scope object = true)
  | read {key : String} {property : Property} (isPrivate : property.access.isPrivate = true)
    (given : heap.readableProperty scope object key = .ok (some property))
  | write {key : String} {property : Property} (isPrivate : property.access.isPrivate = true)
    (stored : (heap.object object).properties.get? key = some property)
    (replaces : heap.writeEffect scope object key = .ok .replaced)

theorem isInternal_of_readable {key : String} {property : Property}
    (isPrivate : property.access.isPrivate = true)
    (given : heap.readableProperty scope object key = .ok (some property)) :
    heap.isInternal scope object = true := by
  unfold readableProperty at given
  split at given
  · cases given
  · split at given
    · cases given
    · rename_i permitted
      cases given
      simpa [isPrivate] using permitted

theorem isInternal_of_writable {key : String} {property : Property}
    (isPrivate : property.access.isPrivate = true)
    (stored : (heap.object object).properties.get? key = some property)
    (replaces : heap.writeEffect scope object key = .ok .replaced) :
    heap.isInternal scope object = true := by
  simp only [writeEffect, stored, Access.guard?, isPrivate, if_true] at replaces
  split at replaces
  · cases replaces
  · split at replaces
    · cases replaces
    · split at replaces
      · assumption
      · cases replaces

theorem Opens.isInternal (opens : heap.Opens scope object) :
    heap.isInternal scope object = true := by
  cases opens with
  | inside internal => exact internal
  | read isPrivate given => exact isInternal_of_readable isPrivate given
  | write isPrivate stored replaces => exact isInternal_of_writable isPrivate stored replaces

/-- Classes have static sides of their own, so a receiver inside one is the static
side itself or is linked to its class and to no other. -/
theorem WellFormed.receiver_of_isInternal (formed : heap.WellFormed) {cls : ClassRef}
    (held : heap.Holds (.class cls))
    (internal : heap.isInternal scope (heap.class cls).statics = true) :
    ∃ ref, .object ref ∈ heap.receivers scope ∧
      (ref = (heap.class cls).statics ∨ heap.classOf? ref = some cls) := by
  obtain ⟨receiver, bound, inside⟩ := List.any_eq_true.mp internal
  cases receiver with
  | object ref =>
      refine ⟨ref, bound, ?_⟩
      rcases Bool.or_eq_true_iff.mp inside with itself | linked
      · exact .inl (eq_of_beq itself)
      · obtain ⟨own, link, same⟩ := Option.any_eq_true _ _ |>.mp linked
        have isOwn := formed.statics own cls (formed.classOf? link) held (eq_of_beq same)
        exact .inr (isOwn ▸ link)
  | _ => cases inside

end Heap

namespace Machine

/-- A receiver of the scope is the static side of the class, or the deeds made it as
an instance of the class or linked it to the class. -/
def Admits (machine : Machine) (deeds : List Deed) (scope : FrameRef) (cls : ClassRef) : Prop :=
  ∃ ref, .object ref ∈ machine.heap.receivers scope ∧
    (ref = (machine.heap.class cls).statics ∨ .made ref cls ∈ deeds ∨ .linked ref cls ∈ deeds)

variable {settings : Settings} {outputLimit : Option Nat} {threads : ThreadPolicy}
  {machine : Machine} {deeds : List Deed}

/-- The first machine has no objects, so all links are deeds of the history. -/
theorem Trace.admits (history : (bare settings outputLimit threads).Trace deeds machine)
    {scope : FrameRef} {cls : ClassRef} (held : machine.heap.Holds (.class cls))
    (internal : machine.heap.isInternal scope (machine.heap.class cls).statics = true) :
    machine.Admits deeds scope cls := by
  have formed := (history.keeps (bare_wellFormed settings outputLimit threads)).2.1.heap
  obtain ⟨ref, bound, inside⟩ := formed.receiver_of_isInternal held internal
  refine ⟨ref, bound, inside.imp_right fun linked => ?_⟩
  rcases history.classOf? linked with atStart | since
  · cases atStart
  · exact since

end Machine

namespace Session

/-- However a session has come to its machine, each instance that was made is told of
in the journal, and what the static side of a class keeps to its owner is open only to
code with a receiver that is the static side itself, was made as an instance of the
class, or had the class written to it under the name of the link. -/
theorem static_privacy {settings : Settings} {outputLimit : Option Nat} {threads : ThreadPolicy}
    {machine : Machine}
    (session : Session (.new settings outputLimit threads) machine) :
    (Machine.bare settings outputLimit threads).Reaches machine ∧
      ∀ deeds, (Machine.bare settings outputLimit threads).Trace deeds machine →
        machine.constructions = deeds.filterMap (Deed.constructed? machine.heap) ∧
        ∀ scope cls, machine.heap.Holds (.class cls) →
          machine.heap.Opens scope (machine.heap.class cls).statics →
          machine.Admits deeds scope cls := by
  have started := Machine.bare_wellFormed settings outputLimit threads
  have opened := Machine.new_wellFormed settings outputLimit threads
  have opens := Machine.bare_reaches_new settings outputLimit threads
  refine ⟨opens.trans (session.reaches opened), ?_⟩
  intro deeds history
  exact ⟨history.constructions started, fun scope cls held opens =>
    history.admits held opens.isInternal⟩

/-- A class keeps a secret, and a literal that names the class as its own gives it away. -/
def impersonating : List Stmt :=
  let cls : Expr := { node := .name "C" }
  let secret : FieldDecl := ⟨"secret", some { node := .text "hidden" }, true, true, false, {}⟩
  let reveal : FunctionDecl :=
    ⟨some "reveal", [], [{ node := .return (some { node := .member cls "secret" false }) }], {}⟩
  let literal : Expr := { node := .object [
    .property (.named "__class__") cls {} false {},
    .property (.named "reveal") { node := .function reveal } {} true {}] }
  let revealed : Expr := { node := .member { node := .name "o" } "reveal" false }
  [{ node := .class ⟨"C", none, [secret], [], {}⟩ },
    { node := .declare (.name "o") (some literal) false },
    { node := .return (some { node := .call revealed [] false }) }]

/-- The code of the literal is inside the static side although no instance was ever
made, so a class was written under the name of the link. -/
theorem static_privacy_impersonated :
    let machine := ((Request.execute impersonating).run (.ofFuel 20)).leaves (.new {} none)
    machine.constructions = [] ∧ (machine.heap.class ⟨0⟩).statics = ⟨4⟩ ∧
      machine.heap.isInternal ⟨3⟩ ⟨4⟩ = true ∧
      (machine.heap.receivers ⟨3⟩).all (·.sameReference (.object ⟨5⟩)) = true ∧
      ∃ deeds, (Machine.bare {} none).Trace deeds machine ∧ .linked ⟨5⟩ ⟨0⟩ ∈ deeds := by
  intro machine
  have unmade : machine.constructions = [] := by decide +kernel
  have statics : (machine.heap.class ⟨0⟩).statics = ⟨4⟩ := by decide +kernel
  have internal : machine.heap.isInternal ⟨3⟩ ⟨4⟩ = true := by decide +kernel
  have alone : (machine.heap.receivers ⟨3⟩).all (·.sameReference (.object ⟨5⟩)) = true := by
    decide +kernel
  refine ⟨unmade, statics, internal, alone, ?_⟩
  have asked : Session (.new {} none) machine :=
    .asked .opened 20 (.execute impersonating) trivial
  obtain ⟨⟨deeds, history⟩, settled⟩ := static_privacy asked
  obtain ⟨told, admitted⟩ := settled deeds history
  have declared : machine.heap.Holds (.class ⟨0⟩) := by
    change 0 < machine.heap.classes.size
    decide +kernel
  obtain ⟨ref, bound, inside⟩ := admitted ⟨3⟩ ⟨0⟩ declared (.inside (statics ▸ internal))
  obtain rfl : ref = ⟨5⟩ := eq_of_beq (List.all_eq_true.mp alone _ bound)
  rcases inside with itself | isMade | isLinked
  · cases itself.trans statics
  · have noted := Deed.mem_constructed machine.heap isMade
    rw [← told, unmade] at noted
    cases noted
  · exact ⟨deeds, history, isLinked⟩

end Session

end Hati
