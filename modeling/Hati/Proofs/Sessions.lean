import Hati.Proofs.Soundness

namespace Hati

/-!
# Sessions with an interpreter

A host starts an interpreter and then asks it, as often as it likes, to execute
programs, to evaluate, to call, to construct and to delete, and to let the event
loop go on.  What it hands in was given to it by the interpreter before.  However
the requests end, the heap stays well formed, and it only grows: a frame keeps its
parent, and a class its superclass.

Parents and superclasses are older than what they belong to, also where a class is
declared under the name of its own superclass.  Every walk along them therefore
comes to an end, and the positions that bound the walks never cut one off.
-/

/-! ## Requests -/

namespace Request

/-- What is handed in was given out before. -/
def IsHeld (heap : Heap) : Request → Prop
  | execute _ | drain _ _ => True
  | eval _ scope | exec _ scope => heap.HasFrame scope
  | call callee receiver args scope _ =>
    heap.Holds callee ∧ (∀ value ∈ receiver, heap.Holds value) ∧ heap.HoldsItems args ∧
      heap.HasFrame scope
  | construct cls args scope _ =>
    heap.Holds (.class cls) ∧ heap.HoldsItems args ∧ heap.HasFrame scope
  | delete target args scope _ => heap.Holds target ∧ heap.HoldsItems args ∧ heap.HasFrame scope

/-- What is held may be handed in. -/
theorem IsHeld.grants {request : Request} {machine : Machine} (held : request.IsHeld machine.heap) :
    Logic.sound.Grants machine request := by
  cases request with
  | execute program =>
      refine ⟨fun _ _ => trivial, fun after led stmt _ => ?_, fun _ _ _ _ => trivial⟩
      exact Logic.sound_admits (led.2.wellFormed led.1).globals
  | eval expr scope => exact ⟨trivial, held⟩
  | exec stmt scope => exact ⟨trivial, Logic.sound_admits held⟩
  | call callee receiver args scope span =>
      obtain ⟨calleeHeld, receiverHeld, argsHeld, -⟩ := held
      exact ⟨trivial, fun _ => calleeHeld, fun value member _ => receiverHeld value member,
        fun item member _ => argsHeld item member⟩
  | construct cls args scope span =>
      obtain ⟨clsHeld, argsHeld, -⟩ := held
      exact ⟨trivial, fun _ => clsHeld, fun item member _ => argsHeld item member⟩
  | delete target args scope span =>
      obtain ⟨targetHeld, argsHeld, -⟩ := held
      exact ⟨trivial, trivial, fun _ => targetHeld, fun item member _ => argsHeld item member⟩
  | drain rounds executed => exact ⟨trivial, trivial, fun _ => id⟩

theorem reaches {request : Request} {machine : Machine} (formed : machine.WellFormed)
    (held : request.IsHeld machine.heap) (fuel : Nat) :
    machine.Reaches ((request.run (.ofFuel fuel)).leaves machine) := by
  have relates := (Logic.sound_covers fuel).request held.grants
  exact (relates.leaves ⟨formed, .refl machine⟩).2

end Request

/-- Requests after one another, each with some fuel and however they end. -/
inductive Session (start : Machine) : Machine → Prop where
  | opened : Session start start
  | asked {machine : Machine} (before : Session start machine) (fuel : Nat) (request : Request)
    (held : request.IsHeld machine.heap) :
    Session start ((request.run (.ofFuel fuel)).leaves machine)

theorem Session.reaches {start machine : Machine} (session : Session start machine)
    (formed : start.WellFormed) : start.Reaches machine := by
  induction session with
  | opened => exact .refl start
  | asked before fuel request held ih =>
      exact ih.trans (request.reaches (ih.wellFormed formed) held fuel)

/-! ## Walks and searches -/

/-- All that is met from a start along `next`, up to where that leads no further. -/
inductive Walk {ι : Type} (next : ι → Option ι) : ι → List ι → Prop where
  | last {here : ι} (ends : next here = none) : Walk next here [here]
  | step {here beyond : ι} {rest : List ι} (leads : next here = some beyond)
    (further : Walk next beyond rest) : Walk next here (here :: rest)

/-- A search from a start along `next` has come to its end, with the first answer or
with none at all. -/
inductive Search {ι α : Type} (next : ι → Option ι) (answer : ι → Option α) :
    ι → Option α → Prop where
  | found {here : ι} {a : α} (answers : answer here = some a) : Search next answer here (some a)
  | missed {here : ι} (silent : answer here = none) (ends : next here = none) :
    Search next answer here none
  | step {here beyond : ι} {result : Option α} (silent : answer here = none)
    (leads : next here = some beyond) (further : Search next answer beyond result) :
    Search next answer here result

theorem Walk.search {ι α : Type} {next : ι → Option ι} {here : ι} {walk : List ι}
    (walked : Walk next here walk) (answer : ι → Option α) :
    Search next answer here (walk.findSome? answer) := by
  induction walked with
  | @last here ends =>
      rw [List.findSome?_cons]
      cases answers : answer here with
      | some a => exact .found answers
      | none => exact .missed answers ends
  | @step here beyond rest leads further ih =>
      rw [List.findSome?_cons]
      cases answers : answer here with
      | some a => exact .found answers
      | none => exact .step answers leads ih

namespace Heap

variable {heap : Heap}

/-- The scope around a scope. -/
def outer? (heap : Heap) (ref : FrameRef) : Option FrameRef :=
  (heap.frame ref).parent

def superclass? (heap : Heap) (ref : ClassRef) : Option ClassRef :=
  (heap.class ref).superclass

/-- A scope, if it binds the name itself. -/
def binder? (heap : Heap) (name : String) (ref : FrameRef) : Option FrameRef :=
  if (heap.frame ref).bindings.contains name then some ref else none

/-- A frame comes after the one around it, so the frames make up trees. -/
def IsForest (heap : Heap) : Prop :=
  ∀ ref parent, heap.outer? ref = some parent → parent.index < ref.index

theorem WellFormed.isForest (formed : heap.WellFormed) : heap.IsForest :=
  fun ref parent around => (formed.frames ref).parent parent around

/-- A walk that is bounded by more than the position of its start is not cut off. -/
theorem IsForest.walk_framesFrom (forest : heap.IsForest) :
    ∀ (count : Nat) (ref : FrameRef), ref.index < count →
      Walk heap.outer? ref (heap.framesFrom count ref)
  | 0, _, impossible => absurd impossible (Nat.not_lt_zero _)
  | count + 1, ref, bound => by
      unfold framesFrom
      cases outer : (heap.frame ref).parent with
      | none => exact .last outer
      | some parent =>
          have older := forest ref parent outer
          exact .step outer (forest.walk_framesFrom count parent
            (Nat.lt_of_lt_of_le older (Nat.le_of_lt_succ bound)))

/-- All frames of a scope are met on the way outwards. -/
theorem IsForest.walk_scopeChain (forest : heap.IsForest) (scope : FrameRef) :
    Walk heap.outer? scope (heap.scopeChain scope) :=
  forest.walk_framesFrom _ scope (Nat.lt_succ_self _)

theorem WellFormed.walk_ancestorsFrom (formed : heap.WellFormed) :
    ∀ (count : Nat) (ref : ClassRef), ref.index < count → heap.Holds (.class ref) →
      Walk heap.superclass? ref (heap.ancestorsFrom count ref)
  | 0, _, impossible, _ => absurd impossible (Nat.not_lt_zero _)
  | count + 1, ref, bound, held => by
      unfold ancestorsFrom
      cases above : (heap.class ref).superclass with
      | none => exact .last above
      | some parent =>
          have older := (formed.classes ref held).superclass parent above
          exact .step above (formed.walk_ancestorsFrom count parent
            (Nat.lt_of_lt_of_le older (Nat.le_of_lt_succ bound)) (formed.superclass held above))

/-- Every walk and every search from a scope or a class of the heap comes to an end,
and with the result that the bounded walks give. -/
structure Terminates (heap : Heap) : Prop where
  isBound : ∀ scope name, heap.HasFrame scope → ∃ owner,
    Search heap.outer? (heap.binder? name) scope owner ∧ heap.isBound scope name = owner.isSome
  lookup : ∀ scope name, heap.HasFrame scope →
    Search heap.outer? (heap.localBinding? · name) scope (heap.lookup? scope name)
  frameOf : ∀ scope name, heap.HasFrame scope →
    Search heap.outer? (heap.binder? name) scope (heap.frameOf? scope name)
  receivers : ∀ scope, heap.HasFrame scope → ∃ walk, Walk heap.outer? scope walk ∧
    heap.receivers scope =
      walk.filterMap fun ref => (heap.localBinding? ref receiverName).map Binding.value
  lineage : ∀ cls, heap.Holds (.class cls) → Walk heap.superclass? cls (heap.lineage cls)
  findMethod : ∀ cls name, heap.Holds (.class cls) →
    Search heap.superclass? (fun owner => ((heap.class owner).decl.method? name false).map
      fun method => (owner, method)) cls (heap.findMethod? cls name)

theorem frameOf?_eq (scope : FrameRef) (name : String) :
    heap.frameOf? scope name = (heap.scopeChain scope).findSome? (heap.binder? name) := by
  rw [Heap.frameOf?, List.find?_eq_findSome?_guard]
  rfl

theorem isBound_eq (scope : FrameRef) (name : String) :
    heap.isBound scope name = (heap.frameOf? scope name).isSome := by
  rw [Bool.eq_iff_iff, Heap.isBound, Heap.frameOf?, List.any_eq_true, List.find?_isSome]

theorem WellFormed.terminates (formed : heap.WellFormed) : heap.Terminates := by
  have outward : ∀ scope, Walk heap.outer? scope (heap.scopeChain scope) :=
    formed.isForest.walk_scopeChain
  have upward : ∀ cls, heap.Holds (.class cls) → Walk heap.superclass? cls (heap.lineage cls) :=
    fun cls held => formed.walk_ancestorsFrom _ cls (Nat.lt_succ_self _) held
  have frameOf : ∀ scope name,
      Search heap.outer? (heap.binder? name) scope (heap.frameOf? scope name) :=
    fun scope name => frameOf?_eq scope name ▸ (outward scope).search _
  exact {
    isBound := fun scope name _ => ⟨_, frameOf scope name, isBound_eq scope name⟩
    lookup := fun scope name _ => (outward scope).search _
    frameOf := fun scope name _ => frameOf scope name
    receivers := fun scope _ => ⟨_, outward scope, rfl⟩
    lineage := upward
    findMethod := fun cls name held => (upward cls held).search _ }

end Heap

namespace Session

/-- Whatever a session has asked for, all references lead to cells, parents and
superclasses are older than what they belong to and stay what they are for the rest
of the session, and every walk along them comes to an end. -/
theorem heap_wellFormed {settings : Settings} {outputLimit : Option Nat} {threads : ThreadPolicy}
    {machine after : Machine} (earlier : Session (.new settings outputLimit threads) machine)
    (later : Session machine after) :
    after.WellFormed ∧ machine.heap.Grows after.heap ∧ after.heap.Terminates := by
  have formed := (earlier.reaches (Machine.new_wellFormed settings outputLimit threads)).wellFormed
    (Machine.new_wellFormed settings outputLimit threads)
  have reached := later.reaches formed
  have still := reached.wellFormed formed
  exact ⟨still, reached.grows formed, still.heap.terminates⟩

/-- A class is declared, another one under the same name with the first as its
superclass, and then an instance is made. -/
def redeclaring : List Stmt := [
  { node := .class ⟨"A", none, [], [], {}⟩ },
  { node := .class ⟨"A", some "A", [], [], {}⟩ },
  { node := .expression ⟨.construct ⟨.name "A", {}⟩ [], {}⟩ }]

/-- The second class comes after the first, and an instance of it can be made. -/
theorem heap_wellFormed_redeclared :
    let machine := Machine.new {} none
    let after := ((Request.execute redeclaring).run (.ofFuel 9)).leaves machine
    after.heap.lineage ⟨1⟩ = [⟨1⟩, ⟨0⟩] ∧ after.heap.classOf? ⟨6⟩ = some ⟨1⟩ ∧
      after.WellFormed ∧ machine.heap.Grows after.heap ∧ after.heap.Terminates :=
  ⟨by decide +kernel, by decide +kernel,
    heap_wellFormed .opened (.asked .opened 9 (.execute redeclaring) trivial)⟩

end Session

end Hati
