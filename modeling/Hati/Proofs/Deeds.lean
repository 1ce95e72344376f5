import Hati.Machine
import Hati.Proofs.Allocation

namespace Hati

/-!
# The steps of a machine, and what they link

Everything that running a program does to a machine is a sequence of the steps
listed here, each with what has to be there when it is taken.  The steps say more
than that references lead to cells.  An object counts as an instance of the class
that it is linked to, and the link is a property, which can come to an object in
two ways: the object is made as an instance, with the link from the start, or a
class is written under the name of the link, as any value under any key.  A deed
is one or the other, and a trace keeps the deeds of its steps.

The two allocations of a class declaration are one step, because only then the
static side is known to be new, and so are the note of a construction, the new
object and its link: no other step makes an instance or notes that one is made.
-/

/-- How an object came to be linked to a class. -/
inductive Deed where
  | made (object : ObjectRef) (cls : ClassRef)
  | linked (object : ObjectRef) (cls : ClassRef)
deriving DecidableEq

/-- What a property written to an object links it to. -/
def Deed.ofWrite (object : ObjectRef) (key : String) : Value → List Deed
  | .class cls => if key = classLinkName then [.linked object cls] else []
  | _ => []

/-- The link that a new instance gets to its class. -/
def classLink (cls : ClassRef) (span : Span) : Property :=
  { value := .class cls, access := { isPrivate := true }, span }

namespace Event

/-- The class that an instance is made of. -/
def constructed? : Event → Option String
  | constructing name => some name
  | _ => none

end Event

namespace Object

/-- The object is not linked to a class. -/
def IsUnlinked (object : Object) : Prop :=
  ∀ cls, object.stored? classLinkName ≠ some (.class cls)

end Object

namespace Heap

/-- A step that changes the heap alone. -/
inductive Step : Heap → List Deed → Heap → Prop where
  | allocFrame {heap : Heap} {parent : FrameRef} (inside : heap.HasFrame parent) :
    Step heap [] (heap.allocFrame { parent := some parent }).2
  | allocList {heap : Heap} {items : Array Value} (held : heap.HoldsItems items.toList) :
    Step heap [] (heap.allocList items).2
  | allocObject {heap : Heap} {object : Object} (held : heap.HoldsObject object)
    (unlinked : object.IsUnlinked) : Step heap [] (heap.allocObject object).2
  | allocFunction {heap : Heap} {function : Function} (held : heap.HoldsBody function.body) :
    Step heap [] (heap.allocFunction function).2
  | declare {heap : Heap} {cls : Class} (above : ∀ parent ∈ cls.superclass,
      heap.Holds (.class parent)) (scope : heap.HasFrame cls.scope)
    (statics : cls.statics = (heap.allocObject {}).1) :
    Step heap [] ((heap.allocObject {}).2.allocClass cls).2
  | bind {heap : Heap} {frame : FrameRef} {name : String} {binding : Binding}
    (held : heap.Holds binding.value) : Step heap [] (heap.bind frame name binding)
  | modifyList {heap : Heap} {ref : ListRef} {change : Array Value → Array Value}
    (held : heap.HoldsItems (change (heap.list ref)).toList) :
    Step heap [] (heap.modifyList ref change)
  | write {heap : Heap} {ref : ObjectRef} {key : String} {property : Property}
    (held : heap.Holds property.value) :
    Step heap (Deed.ofWrite ref key property.value)
      (heap.modifyObject ref fun object => object.insert key property)
  | freeze {heap : Heap} {ref : ObjectRef} :
    Step heap [] (heap.modifyObject ref fun object => { object with isFrozen := true })
  | clear {heap : Heap} {ref : ObjectRef} : Step heap [] (heap.modifyObject ref Object.clear)

variable {heap after : Heap} {deeds : List Deed}

theorem holdsObject_insert {object : Object} {key : String} {property : Property}
    (held : heap.HoldsObject object) (written : heap.Holds property.value) :
    heap.HoldsObject (object.insert key property) := by
  intro entry member
  rcases Dict.mem_entries_insert member with rfl | old
  · exact written
  · exact held entry old

theorem holdsObject_empty : heap.HoldsObject {} := fun _ member => by cases member

/-- A step adds cells and leaves a well-formed heap well formed. -/
theorem Step.keeps (step : heap.Step deeds after) (formed : heap.WellFormed) :
    heap.Grows after ∧ after.WellFormed := by
  have revising : ∀ {heap after : Heap}, heap.Revises after → heap.WellFormed →
      heap.Grows after ∧ after.WellFormed :=
    fun revised formed => ⟨revised.grows, revised.wellFormed formed⟩
  cases step with
  | @allocFrame parent inside =>
      refine revising (revises_allocFrame ⟨fun outer isParent => ?_, fun _ member => ?_⟩) formed
      · cases isParent
        exact inside
      · cases member
  | allocList held => exact revising (revises_allocList held) formed
  | allocObject held _ => exact revising (revises_allocObject held) formed
  | allocFunction held => exact revising (revises_allocFunction held) formed
  | @declare cls above scope statics =>
      obtain ⟨grown, fresh⟩ := revising (revises_allocObject holdsObject_empty) formed
      -- The static sides of the other classes were there before this one was allocated.
      have own : ∀ other, heap.Holds (.class other) →
          (heap.class other).statics ≠ cls.statics := by
        intro other held same
        have allocated := (formed.classes other held).statics
        rw [same, statics] at allocated
        exact Nat.lt_irrefl _ allocated
      have held : (heap.allocObject {}).2.HoldsClass ⟨heap.classes.size⟩ cls :=
        ⟨above, statics ▸ holds_allocObject heap {}, scope⟩
      obtain ⟨further, formed⟩ := revising (revises_allocClass held own) fresh
      exact ⟨grown.trans further, formed⟩
  | bind held => exact revising (revises_bind formed held) formed
  | modifyList held => exact revising (revises_modifyList held) formed
  | @write ref key property held =>
      exact revising (revises_modifyObject (holdsObject_insert (formed.objects ref) held)) formed
  | @freeze ref => exact revising (revises_modifyObject (formed.objects ref)) formed
  | clear => exact revising (revises_modifyObject holdsObject_empty) formed

/-! ## Links -/

theorem classOf?_eq_some {ref : ObjectRef} {cls : ClassRef} :
    heap.classOf? ref = some cls ↔
      (heap.object ref).stored? classLinkName = some (.class cls) := by
  unfold classOf?
  split
  · rename_i other stored
    simp [stored]
  · rename_i none
    simpa using none cls

theorem classOf?_of_objects (same : after.objects = heap.objects) (ref : ObjectRef) :
    after.classOf? ref = heap.classOf? ref := by
  simp only [classOf?, Heap.object, same]

/-- A new object is linked to what its own property says. -/
theorem classOf?_allocObject {object : Object} {ref : ObjectRef} {cls : ClassRef}
    (linked : (heap.allocObject object).2.classOf? ref = some cls) :
    heap.classOf? ref = some cls ∨
      ref = (heap.allocObject object).1 ∧ object.stored? classLinkName = some (.class cls) := by
  rw [classOf?_eq_some] at linked ⊢
  simp only [Heap.object, allocObject, Array.getD_eq_getD_getElem?, Array.getElem?_push] at linked ⊢
  split at linked
  · rename_i fresh
    exact .inr ⟨congrArg ObjectRef.mk fresh, linked⟩
  · exact .inl linked

/-- A change of one object leaves the links of the others alone. -/
theorem classOf?_modifyObject {target ref : ObjectRef} {change : Object → Object}
    {cls : ClassRef} (linked : (heap.modifyObject target change).classOf? ref = some cls) :
    heap.classOf? ref = some cls ∨
      ref = target ∧ (change (heap.object ref)).stored? classLinkName = some (.class cls) := by
  rw [classOf?_eq_some] at linked ⊢
  by_cases here : ref = target
  · subst here
    rcases Nat.lt_or_ge ref.index heap.objects.size with allocated | outside
    · rw [object_modifyObject_self heap ref change allocated] at linked
      exact .inr ⟨rfl, linked⟩
    · simp [Heap.object, modifyObject, Array.getD_eq_getD_getElem?, outside, Object.stored?,
        Dict.get?] at linked
  · rw [object_modifyObject_of_ne here] at linked
    exact .inl linked

/-- What is written under the name of the link is what the object is linked to. -/
theorem stored?_insert {object : Object} {key : String} {property : Property} {cls : ClassRef}
    (linked : (object.insert key property).stored? classLinkName = some (.class cls)) :
    object.stored? classLinkName = some (.class cls) ∨
      key = classLinkName ∧ property.value = .class cls := by
  by_cases same : key = classLinkName
  · subst same
    simp only [Object.stored?, Object.insert, Dict.get?_insert_self, Option.map_some,
      Option.some.injEq] at linked
    exact .inr ⟨rfl, linked⟩
  · simp only [Object.stored?, Object.insert, Dict.get?_insert_of_ne (Ne.symm same)] at linked
    exact .inl linked

/-- An object that is linked after a step was linked before, or by a deed of the step. -/
theorem Step.classOf? (step : heap.Step deeds after) {ref : ObjectRef} {cls : ClassRef}
    (linked : after.classOf? ref = some cls) :
    heap.classOf? ref = some cls ∨ .linked ref cls ∈ deeds := by
  cases step with
  | allocFrame | allocList | allocFunction | bind | modifyList =>
      exact .inl ((classOf?_of_objects rfl ref).symm.trans linked)
  | allocObject held unlinked =>
      rcases classOf?_allocObject linked with before | ⟨-, stored⟩
      · exact .inl before
      · exact absurd stored (unlinked cls)
  | declare above scope statics =>
      have declared : (heap.allocObject {}).2.classOf? ref = some cls :=
        (classOf?_of_objects rfl ref).symm.trans linked
      rcases classOf?_allocObject declared with before | ⟨-, stored⟩
      · exact .inl before
      · cases stored
  | @write target key property held =>
      rcases classOf?_modifyObject linked with before | ⟨rfl, stored⟩
      · exact .inl before
      · rcases stored?_insert stored with before | ⟨rfl, value⟩
        · exact .inl (classOf?_eq_some.mpr before)
        · simp [Deed.ofWrite, value]
  | freeze =>
      rcases classOf?_modifyObject linked with before | ⟨-, stored⟩
      · exact .inl before
      · exact .inl (classOf?_eq_some.mpr stored)
  | clear =>
      rcases classOf?_modifyObject linked with before | ⟨-, stored⟩
      · exact .inl before
      · cases stored

end Heap

namespace Machine

/-- All that a waiting callback refers to is in the heap. -/
def HoldsTasks (heap : Heap) (tasks : List (Nat × Task Value)) : Prop :=
  ∀ entry ∈ tasks, heap.Holds entry.2.callback ∧ heap.HoldsItems entry.2.arguments

/-- All references of the machine lead to cells of a heap that is well formed. -/
structure WellFormed (machine : Machine) : Prop where
  heap : machine.heap.WellFormed
  globals : machine.heap.HasFrame machine.globals
  constructing : ∀ cls ∈ machine.constructing, machine.heap.Holds (.class cls)
  tasks : HoldsTasks machine.heap machine.scheduler.tasks

/-- The heap after an object was made as an instance of a class. -/
def instanceHeap (heap : Heap) (cls : ClassRef) (span : Span) : Heap :=
  (heap.allocObject {}).2.modifyObject (heap.allocObject {}).1 fun object =>
    object.insert classLinkName (classLink cls span)

/-- One step of running a program. -/
inductive Step (machine : Machine) : List Deed → Machine → Prop where
  | heap {deeds : List Deed} {heap : Heap} (step : machine.heap.Step deeds heap) :
    Step machine deeds { machine with heap }
  | make {cls : ClassRef} {span : Span} (held : machine.heap.Holds (.class cls)) :
    Step machine [.made (machine.heap.allocObject {}).1 cls]
      { machine with
        heap := instanceHeap machine.heap cls span
        journal := machine.journal.push (.constructing (machine.heap.class cls).name) }
  | note {event : Event} (otherwise : event.constructed? = none) :
    Step machine [] { machine with journal := machine.journal.push event }
  | print {console : Console} : Step machine [] { machine with console }
  | schedule {scheduler : Scheduler Value} (held : HoldsTasks machine.heap scheduler.tasks) :
    Step machine [] { machine with scheduler }
  | enter {callDepth : Nat} {constructing : Option ClassRef}
    (held : ∀ cls ∈ constructing, machine.heap.Holds (.class cls)) :
    Step machine [] { machine with callDepth, constructing }

/-- Steps after one another, with all their deeds. -/
inductive Trace : Machine → List Deed → Machine → Prop where
  | refl (machine : Machine) : Trace machine [] machine
  | step {machine middle after : Machine} {deeds more : List Deed}
    (first : machine.Step deeds middle) (rest : Trace middle more after) :
    Trace machine (deeds ++ more) after

variable {machine middle after : Machine} {deeds more : List Deed}

theorem Step.single (step : machine.Step deeds after) : machine.Trace deeds after := by
  have trace := Trace.step step (.refl after)
  rwa [List.append_nil] at trace

theorem Trace.trans (first : machine.Trace deeds middle) (second : middle.Trace more after) :
    machine.Trace (deeds ++ more) after := by
  induction first with
  | refl => exact second
  | step first _ ih =>
      rw [List.append_assoc]
      exact .step first (ih second)

/-! ## What a trace keeps -/

theorem HoldsTasks.mono {heap after : Heap} {tasks : List (Nat × Task Value)}
    (held : HoldsTasks heap tasks) (grown : heap.Grows after) : HoldsTasks after tasks :=
  fun entry member => ⟨(held entry member).1.mono grown, (held entry member).2.mono grown⟩

/-- What the machine refers to besides is in the heap after the heap has changed. -/
theorem WellFormed.withHeap (formed : machine.WellFormed) {heap : Heap}
    (kept : machine.heap.Grows heap ∧ heap.WellFormed) :
    WellFormed { machine with heap } where
  heap := kept.2
  globals := formed.globals.mono kept.1
  constructing cls member := (formed.constructing cls member).mono kept.1
  tasks := formed.tasks.mono kept.1

/-- An instance is made by an allocation and a write. -/
theorem instanceHeap_keeps {heap : Heap} (formed : heap.WellFormed) {cls : ClassRef}
    (held : heap.Holds (.class cls)) (span : Span) :
    heap.Grows (instanceHeap heap cls span) ∧ (instanceHeap heap cls span).WellFormed := by
  have allocation : heap.Step [] (heap.allocObject {}).2 :=
    .allocObject Heap.holdsObject_empty fun _ stored => by cases stored
  obtain ⟨grown, fresh⟩ := allocation.keeps formed
  have write : Heap.Step _ _ (instanceHeap heap cls span) := .write (held.mono grown)
  obtain ⟨further, formed⟩ := write.keeps fresh
  exact ⟨grown.trans further, formed⟩

theorem Step.keeps (step : machine.Step deeds after) (formed : machine.WellFormed) :
    machine.heap.Grows after.heap ∧ after.WellFormed ∧ after.globals = machine.globals := by
  cases step with
  | heap step =>
      have kept := step.keeps formed.heap
      exact ⟨kept.1, formed.withHeap kept, rfl⟩
  | @make cls span held =>
      have kept := instanceHeap_keeps formed.heap held span
      have withInstance := formed.withHeap kept
      exact ⟨kept.1, { withInstance with }, rfl⟩
  | note => exact ⟨.refl _, { formed with }, rfl⟩
  | print => exact ⟨.refl _, { formed with }, rfl⟩
  | schedule held => exact ⟨.refl _, { formed with tasks := held }, rfl⟩
  | enter held => exact ⟨.refl _, { formed with constructing := held }, rfl⟩

theorem Trace.keeps (trace : machine.Trace deeds after) (formed : machine.WellFormed) :
    machine.heap.Grows after.heap ∧ after.WellFormed ∧ after.globals = machine.globals := by
  induction trace with
  | refl machine => exact ⟨.refl _, formed, rfl⟩
  | step first _ ih =>
      obtain ⟨grown, formed, same⟩ := first.keeps formed
      obtain ⟨further, formed, unchanged⟩ := ih formed
      exact ⟨grown.trans further, formed, unchanged.trans same⟩

theorem Step.classOf? (step : machine.Step deeds after) {ref : ObjectRef} {cls : ClassRef}
    (linked : after.heap.classOf? ref = some cls) :
    machine.heap.classOf? ref = some cls ∨ .made ref cls ∈ deeds ∨ .linked ref cls ∈ deeds := by
  cases step with
  | heap step => exact (step.classOf? linked).imp_right .inr
  | make held =>
      rcases Heap.classOf?_modifyObject linked with before | ⟨rfl, stored⟩
      · rcases Heap.classOf?_allocObject before with before | ⟨-, stored⟩
        · exact .inl before
        · cases stored
      · rw [Heap.object_allocObject] at stored
        rcases Heap.stored?_insert stored with before | ⟨-, value⟩
        · cases before
        · cases value
          exact .inr (.inl List.mem_cons_self)
  | _ => exact .inl linked

/-- Every link was there at the start, or is a deed of the trace. -/
theorem Trace.classOf? (trace : machine.Trace deeds after) {ref : ObjectRef} {cls : ClassRef}
    (linked : after.heap.classOf? ref = some cls) :
    machine.heap.classOf? ref = some cls ∨ .made ref cls ∈ deeds ∨ .linked ref cls ∈ deeds := by
  induction trace with
  | refl => exact .inl linked
  | step first _ ih =>
      rcases ih linked with before | later
      · refine (first.classOf? before).imp_right fun here => ?_
        exact here.imp (List.mem_append_left _) (List.mem_append_left _)
      · exact .inr (later.imp (List.mem_append_right _) (List.mem_append_right _))

end Machine

end Hati
