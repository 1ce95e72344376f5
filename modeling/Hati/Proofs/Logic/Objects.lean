import Hati.Proofs.Logic.Access

namespace Hati

/-!
# Classes and instances

Declaring a class and making an instance each begin with cells that belong together, and
these beginnings are single moves.  The code of a class runs in scopes that are made for
it, and its fields and methods go into an object that is made for them.  The initial values
of instance fields are the only stored code that is evaluated without a call, so making an
instance asks for evaluations that the program text at hand does not show.
-/

namespace Logic

variable {logic : Logic} {world machine : Machine} {span : Span}

/-- The class that is named, if any, is held. -/
def HeldClass (logic : Logic) (machine : Machine) (named : Option ClassRef) : Prop :=
  ∀ cls ∈ named, logic.Held machine (.class cls)

theorem held_ancestor (valid : logic.leads machine machine) {cls owner : ClassRef}
    (held : logic.Held machine (.class cls)) (member : owner ∈ machine.heap.lineage cls) :
    logic.Held machine (.class owner) :=
  fun tracks => (logic.formed tracks valid).heap.mem_ancestorsFrom (held tracks) member

namespace Relates

variable {α β : Type} {first second : Run α} {last : Machine → β → Prop}

/-! ## Cells that are made together -/

/-- A class is allocated right after its static side. -/
theorem newClass {cls : ObjectRef → Class} {next other : ObjectRef → ClassRef → Run β}
    (statics : ∀ ref, (cls ref).statics = ref)
    (known : ∀ ref, ∀ node ∈ (cls ref).decl.nodes, logic.known node)
    (above : ∀ ref, logic.HeldClass world (cls ref).superclass)
    (inside : ∀ ref, logic.Inside world (cls ref).scope)
    (rest : ∀ after statics ref, logic.leads world after → logic.owns statics →
      logic.Held after (.object statics) → logic.Held after (.class ref) →
      logic.Relates after (next statics ref) (other statics ref) last) :
    logic.Relates world
      (do
        let statics ← Run.newObject {}
        let ref ← Run.newClass (cls statics)
        next statics ref)
      (do
        let statics ← Run.newObject {}
        let ref ← Run.newClass (cls statics)
        other statics ref) last := by
  intro machine onward
  have valid := logic.self onward
  have moved := logic.moves valid (.edit (.newClass (cls (machine.heap.allocObject {}).1) (known _)
    (statics _) (fun tracks parent member => (above _ parent member).later onward tracks)
    ((inside _).later onward)))
  refine (rest _ _ _ (logic.trans onward moved) (logic.owns_fresh valid) (fun _ => ?_) (fun _ => ?_)
    _ (logic.self moved)).before moved
  · exact Heap.holds_allocObject _ _
  · exact Heap.holds_allocClass _ _

/-- An instance is linked to its class as soon as it is noted and allocated. -/
theorem newInstance {cls : ClassRef} {next other : ObjectRef → Run β}
    (held : logic.Held world (.class cls))
    (rest : ∀ after object, logic.leads world after → logic.owns object →
      logic.Held after (.object object) → logic.Relates after (next object) (other object) last) :
    logic.Relates world
      (do
        let ⟨name, _, decl, _, _⟩ ← Run.read fun heap => heap.class cls
        Run.note (.constructing name)
        let object ← Run.newObject {}
        Run.insertProperty object classLinkName
          { value := .class cls, access := { isPrivate := true }, span := decl.span }
        next object)
      (do
        let ⟨name, _, decl, _, _⟩ ← Run.read fun heap => heap.class cls
        Run.note (.constructing name)
        let object ← Run.newObject {}
        Run.insertProperty object classLinkName
          { value := .class cls, access := { isPrivate := true }, span := decl.span }
        other object) last := by
  intro machine onward
  have valid := logic.self onward
  have moved := logic.moves valid
    (.make cls (machine.heap.class cls).decl.span (held.later onward))
  refine (rest _ _ (logic.trans onward moved) (logic.owns_fresh valid) (fun _ => ?_) _
    (logic.self moved)).before moved
  simp [Machine.instanceHeap, Heap.modifyObject, Heap.Holds, Heap.allocObject]

/-! ## Scopes and methods -/

section Methods

variable {owner : ClassRef} (ownerHeld : logic.Held world (.class owner))
include ownerHeld

theorem receiverScope {receiver : Value} (held : logic.Held world receiver) :
    logic.Relates world (Run.receiverScope owner receiver) (Run.receiverScope owner receiver)
      logic.evaluates := by
  intro machine onward
  have valid := logic.self onward
  rw [Run.receiverScope_apply]
  refine ⟨logic.moves valid (.edit ?_), logic.receives valid, rfl⟩
  exact .enterClass owner receiver (ownerHeld.later onward) (held.later onward)

theorem materialize {method : MethodDecl} {receiver : Value}
    (known : logic.known (.function method.function)) (held : logic.Held world receiver) :
    logic.Relates world (Run.materialize owner method receiver)
      (Run.materialize owner method receiver) logic.Held :=
  (receiverScope ownerHeld held).bind fun _ _ _ inside =>
    .newClosure known (logic.inside_of_evaluates · inside)

theorem installMethod {object : ObjectRef} {method : MethodDecl}
    (known : logic.known (.function method.function)) (owned : logic.owns object)
    (held : logic.Held world (.object object)) :
    logic.Relates world (Run.installMethod owner object method)
      (Run.installMethod owner object method) :=
  (materialize ownerHeld known held).bind fun _ _ _ stored => .insertProperty owned stored

theorem installMethods {object : ObjectRef} (owned : logic.owns object)
    (held : logic.Held world (.object object)) :
    logic.Relates world (Evaluator.installMethods object owner)
      (Evaluator.installMethods object owner) := by
  refine .readThen fun machine onward => forM fun method member => ?_
  have known := known_method (logic.self onward) (List.mem_filter.mp member).1
  exact installMethod (ownerHeld.later onward) known owned (held.later onward)

end Methods

/-- A constructor runs while its class is the one under construction. -/
theorem constructingClass {cls : ClassRef} (held : logic.Held world (.class cls))
    (relates : ∀ machine, logic.leads world machine →
      logic.Relates { machine with constructing := some cls } first second) :
    logic.Relates world (Run.constructingClass cls first) (Run.constructingClass cls second) := by
  intro machine onward
  rcases logic.constructs (logic.self onward) (held.later onward) with ⟨valid, leaves⟩
  apply Concludes.afterwards (relates machine onward _ valid)
  · exact leaves
  · exact fun _ _ _ => trivial
  · exact fun _ ends => ends
  · exact fun _ abandons => abandons

/-! ## Parents -/

section Parents

variable (here : logic.place span)
include here

theorem superclass {decl : ClassDecl} {scope : FrameRef} :
    logic.Relates world (Run.superclass decl scope span) (Run.superclass decl scope span)
      logic.HeldClass := by
  unfold Run.superclass
  split
  · exact pure fun _ _ _ => nofun
  · refine (lookup here).bind fun _ value _ held => ?_
    cases value with
    | «class» parent =>
        refine pure fun _ onward cls same => ?_
        cases same
        exact held.1.later onward
    | _ => exact fail here rfl

theorem parentOf {cls : ClassRef} (held : logic.Held world (.class cls)) :
    logic.Relates world (Run.parentOf cls span) (Run.parentOf cls span)
      fun machine parent => logic.Held machine (.class parent) := by
  refine readThen fun machine onward => ?_
  cases above : (machine.heap.class cls).superclass with
  | some parent =>
      refine pure fun _ further => ?_
      have parentHeld : logic.Held machine (.class parent) := fun tracks =>
        (logic.formed tracks (logic.self onward)).heap.superclass (held.later onward tracks) above
      exact parentHeld.later further
  | none => exact reads.andThen fun _ => fail here rfl

end Parents

theorem owner? {scope : FrameRef} :
    logic.Relates world (Evaluator.owner? scope) (Evaluator.owner? scope) logic.HeldClass := by
  refine readThen fun machine onward => ?_
  split
  · rename_i cls _ found
    refine pure fun _ further other same => ?_
    cases same
    have held : logic.Held machine (.class cls) := held_lookup (logic.self onward) found
    exact held.later further
  · refine getThen fun machine onward => pure fun _ further cls member => ?_
    have held : logic.Held machine (.class cls) := fun tracks =>
      (logic.formed tracks (logic.self onward)).constructing cls member
    exact held.later further

end Relates

namespace Covers

variable {asked : Code → Prop} {ev other : Evaluator} {scope : FrameRef}

/-! ## Declarations -/

theorem initializeField (covers : logic.Covers asked ev other) {object : ObjectRef}
    {field : FieldDecl} (inside : logic.evaluates world scope) (owned : logic.owns object)
    (known : ∀ value, field.value = some value → asked (.expr value)) :
    logic.Relates world (ev.initializeField object scope field)
      (other.initializeField object scope field) := by
  unfold Evaluator.initializeField
  dsimp only
  split
  · rename_i value given
    exact (covers.eval (known value given) inside).bind fun _ _ _ held => .insertProperty owned held
  · have nothing : logic.Held world .null := held_of_isCopied trivial
    exact (Relates.value nothing).bind fun _ _ _ held => .insertProperty owned held

theorem declareClass (covers : logic.Covers asked ev other) {decl : ClassDecl}
    (here : logic.place span) (inside : logic.Inside world scope)
    (declares : logic.declares scope decl.name) (known : ∀ part ∈ decl.parts, asked part)
    (nodes : ∀ node ∈ decl.nodes, logic.known node) :
    logic.Relates world (ev.declareClass decl scope span) (other.declareClass decl scope span) := by
  refine (Relates.superclass here).bind fun middle superclass onward above => ?_
  refine .newClass (fun _ => rfl) (fun _ => nodes) (fun _ => above) (fun _ => inside.later onward)
    fun after statics cls further owned staticsHeld held => ?_
  refine (Relates.declare declares held).andThen fun _ => ?_
  refine (Relates.receiverScope held staticsHeld).bind fun final inner later innerInside => ?_
  refine (Relates.forM fun field member => ?_).andThen fun _ => ?_
  · refine covers.initializeField innerInside owned fun value given => known _ ?_
    exact ClassDecl.mem_parts_of_field (List.mem_filter.mp member).1 given
  refine (Relates.forM fun method member => ?_).andThen fun _ => ?_
  · have methodKnown := nodes _ (ClassDecl.mem_nodes_of_method (List.mem_filter.mp member).1)
    exact .installMethod (held.later later) methodKnown owned (staticsHeld.later later)
  · exact Relates.reads.andThen fun _ => .note

/-! ## Instances -/

/-- The fields of an instance are evaluated from the stored declaration of its class. -/
theorem initializeFields (covers : logic.Covers asked ev other) {object : ObjectRef}
    {owner : ClassRef} (ownerHeld : logic.Held world (.class owner)) (owned : logic.owns object)
    (held : logic.Held world (.object object))
    (stored : ∀ code, logic.known (.code code) → asked code) :
    logic.Relates world (ev.initializeFields object owner)
      (other.initializeFields object owner) := by
  refine .readThen fun machine onward => .forM fun field member => ?_
  have scope := Relates.receiverScope (ownerHeld.later onward) (held.later onward)
  refine scope.bind fun _ _ _ inside => covers.initializeField inside owned fun value given => ?_
  apply stored
  apply known_class (logic.self onward) owner
  exact ClassDecl.mem_nodes_of_field (List.mem_filter.mp member).1 given

theorem instantiate (covers : logic.Covers asked ev other) {cls : ClassRef}
    (held : logic.Held world (.class cls))
    (stored : ∀ code, logic.known (.code code) → asked code) :
    logic.Relates world (ev.instantiate cls) (other.instantiate cls)
      fun machine ref => logic.Held machine (.object ref) := by
  refine .newInstance held fun middle object onward owned objectHeld => ?_
  refine .readThen fun machine further => ?_
  have instanceHeld := objectHeld.later further
  -- Every class of the lineage was there before the instance was begun.
  have lineage : ∀ owner ∈ (machine.heap.lineage cls).reverse, logic.Held machine (.class owner) :=
    fun owner member => held_ancestor (logic.self further) ((held.later onward).later further)
      (List.mem_reverse.mp member)
  refine (Relates.forM fun owner member => ?_).andThen fun _ => ?_
  · exact covers.initializeFields (lineage owner member) owned instanceHeld stored
  refine (Relates.forM fun owner member => ?_).andThen fun _ => .pure fun _ later => ?_
  · exact .installMethods (lineage owner member) owned instanceHeld
  · exact instanceHeld.later later

theorem callFor (covers : logic.Covers asked ev other) {function receiver : Value}
    {args : List Value} (here : logic.place span) (functionHeld : logic.Held world function)
    (receiverHeld : logic.Held world receiver) (held : logic.HeldItems world args) :
    logic.Relates world (ev.call function (some receiver) args scope span)
      (other.call function (some receiver) args scope span) logic.Held := by
  refine covers.call here functionHeld ?_ held
  rintro _ ⟨⟩
  exact receiverHeld

theorem runConstructor (covers : logic.Covers asked ev other) {cls : ClassRef} {receiver : Value}
    {args : List Value} (here : logic.place span) (clsHeld : logic.Held world (.class cls))
    (receiverHeld : logic.Held world receiver) (held : logic.HeldItems world args) :
    logic.Relates world (ev.runConstructor cls receiver args scope span)
      (other.runConstructor cls receiver args scope span) := by
  refine .readThen fun machine onward => ?_
  cases found : (machine.heap.class cls).decl.constructor? with
  | none => exact .done
  | some method =>
      have known := known_method (logic.self onward) (List.mem_of_find?_eq_some found)
      have clsHeld := clsHeld.later onward
      have receiverHeld := receiverHeld.later onward
      refine (Relates.materialize clsHeld known receiverHeld).bind
        fun after function further functionHeld => ?_
      refine (Relates.constructingClass (clsHeld.later further) fun final later => ?_).andThen
        fun _ => .done
      -- The class under construction is another one, the heap is the same.
      have functionHeld := functionHeld.later later
      have receiverHeld := (receiverHeld.later further).later later
      have held := ((held.later onward).later further).later later
      exact Relates.forget (covers.callFor here functionHeld receiverHeld held)

theorem construct (covers : logic.Covers asked ev other) {cls : ClassRef} {args : List Value}
    (here : logic.place span) (clsHeld : logic.Held world (.class cls))
    (held : logic.HeldItems world args)
    (stored : ∀ code, logic.known (.code code) → asked code) :
    logic.Relates world (ev.construct cls args scope span) (other.construct cls args scope span)
      logic.Held := by
  refine (covers.instantiate clsHeld stored).bind fun after object onward objectHeld => ?_
  exact (covers.runConstructor here (clsHeld.later onward) objectHeld (held.later onward)).andThen
    fun _ => .value objectHeld

section Arguments

variable (covers : logic.Covers asked ev other) {args : List Expr} (here : logic.place span)
  (inside : logic.evaluates world scope) (known : ∀ arg ∈ args, asked (.expr arg))
include covers here inside known

theorem constructFrom {cls : ClassRef} (clsHeld : logic.Held world (.class cls))
    (stored : ∀ code, logic.known (.code code) → asked code) :
    logic.Relates world (ev.constructFrom cls args scope span)
      (other.constructFrom cls args scope span) logic.Held := by
  refine (covers.instantiate clsHeld stored).bind fun middle object onward objectHeld => ?_
  refine Relates.reads.andThen fun found => ?_
  dsimp only
  split
  · have inside := logic.evaluates_later onward inside
    refine (covers.arguments inside known).bind fun after values further held => ?_
    have instanceHeld := objectHeld.later further
    have clsHeld := (clsHeld.later onward).later further
    exact (covers.runConstructor here clsHeld instanceHeld held).andThen
      fun _ => .value instanceHeld
  · exact .value objectHeld

/-! ## Parents and deletion -/

theorem superConstructor :
    logic.Relates world (ev.superConstructor args scope span)
      (other.superConstructor args scope span) logic.Held := by
  refine .getThen fun machine onward => ?_
  cases current : machine.constructing with
  | none => exact .fail here rfl
  | some cls =>
      have held : logic.Held machine (.class cls) := fun tracks =>
        (logic.formed tracks (logic.self onward)).constructing cls current
      refine (Relates.parentOf here held).bind fun middle parent further above => ?_
      refine (Relates.receiver here).bind fun after receiver later receiverHeld => ?_
      have led := logic.trans onward (logic.trans further later)
      refine (covers.arguments (logic.evaluates_later led inside) known).bind
        fun final values last valuesHeld => ?_
      have parentHeld := (Terms.Held.later above later).later last
      exact (covers.runConstructor here parentHeld (receiverHeld.later last) valuesHeld).andThen
        fun _ => .value (held_of_isCopied trivial)

/-- A method is bound to the receiver once its arguments are evaluated. -/
theorem callMethod {owner : ClassRef} {method : MethodDecl}
    (methodKnown : logic.known (.function method.function))
    (ownerHeld : logic.Held world (.class owner)) :
    logic.Relates world
      (do
        let receiver ← Run.receiver scope span
        let values ← ev.arguments scope args
        let function ← Run.materialize owner method receiver
        ev.call function (some receiver) values scope span)
      (do
        let receiver ← Run.receiver scope span
        let values ← other.arguments scope args
        let function ← Run.materialize owner method receiver
        other.call function (some receiver) values scope span) logic.Held := by
  refine (Relates.receiver here).bind fun middle receiver onward receiverHeld => ?_
  have inside := logic.evaluates_later onward inside
  refine (covers.arguments inside known).bind fun after values further held => ?_
  have receiverHeld := receiverHeld.later further
  have ownerHeld := (ownerHeld.later onward).later further
  refine (Relates.materialize ownerHeld methodKnown receiverHeld).bind
    fun final function later functionHeld => ?_
  exact covers.callFor here functionHeld (receiverHeld.later later) (held.later later)

theorem superMethod {name : String} :
    logic.Relates world (ev.superMethod name args scope span)
      (other.superMethod name args scope span) logic.Held := by
  refine Relates.owner?.bind fun middle owner onward ownerHeld => ?_
  cases owner with
  | none => exact .fail here rfl
  | some owner =>
      refine (Relates.parentOf here (ownerHeld owner rfl)).bind fun after parent further above => ?_
      refine .readThen fun machine later => ?_
      have valid := logic.self later
      cases found : machine.heap.findMethod? parent name with
      | none => exact Relates.reads.andThen fun _ => .fail here rfl
      | some chosen =>
          have definingHeld : logic.Held machine (.class chosen.1) := fun tracks =>
            (logic.formed tracks valid).heap.findMethod? (Terms.Held.later above later tracks) found
          rcases List.exists_of_findSome?_eq_some found with ⟨cls, -, inClass⟩
          rcases Option.map_eq_some_iff.mp inClass with ⟨method, isMethod, rfl⟩
          have methodKnown := known_method valid (List.mem_of_find?_eq_some isMethod)
          have led := logic.trans onward (logic.trans further later)
          exact covers.callMethod here (logic.evaluates_later led inside) known methodKnown
            definingHeld

end Arguments

theorem delete (covers : logic.Covers asked ev other) {target : Value} {args : List Value}
    (here : logic.place span) (permitted : logic.clears) (targetHeld : logic.Held world target)
    (held : logic.HeldItems world args) :
    logic.Relates world (ev.delete target args scope span) (other.delete target args scope span)
      logic.Held := by
  cases target with
  | object ref =>
      have cleared : ∀ machine, logic.Relates machine
          (do Run.clearObject ref; pure Value.null)
          (do Run.clearObject ref; pure Value.null) logic.Held := fun _ =>
        (Relates.clearObject permitted).andThen fun _ => .value (held_of_isCopied trivial)
      refine .readThen fun machine onward => ?_
      have valid := logic.self onward
      cases linked : machine.heap.classOf? ref with
      | none => exact cleared machine
      | some cls =>
          cases found : (machine.heap.class cls).decl.destructor? with
          | none => simpa [found] using cleared machine
          | some method =>
              have clsHeld : logic.Held machine (.class cls) := fun tracks =>
                (logic.formed tracks valid).heap.classOf? linked
              have known := known_method valid (List.mem_of_find?_eq_some found)
              simp only [Option.bind_eq_bind, Option.bind_some, found, Option.pure_def]
              refine (Relates.materialize clsHeld known (targetHeld.later onward)).bind
                fun after function further functionHeld => ?_
              have receiverHeld := (targetHeld.later onward).later further
              exact (covers.callFor here functionHeld receiverHeld
                ((held.later onward).later further)).andThen fun _ => cleared after
  | _ => exact .fail here rfl

end Covers

end Logic

end Hati
