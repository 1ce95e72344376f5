import Hati.Proofs.SuperMethods

namespace Hati

/-!
# Constructors of parents

`super(args)` takes the class from the machine, which remembers whose constructor is
running, and the receiver from the scope.  In the own code of a constructor the two
belong together: the class is the one that declares the constructor, and the receiver is
the object that it was called for.  So there `super(args)` hands the object on to the
constructor of the parent.

Elsewhere they need not belong together.  A call changes the scope, but the machine goes
on remembering the class, and ordinary methods, initial values of fields and callbacks of
another object are not told from the constructor that has called them.  They are refused
only while no constructor is running at all.
-/

namespace Evaluator

variable {ev : Evaluator} {cls : ClassRef} {args : List Expr} {scope : FrameRef} {span : Span}
  {here : Machine}

/-! ## Wherever it stands -/

/-- What `super(args)` comes to in any code.  It is refused while no constructor is
running, in the constructor of a base class and where there is no receiver, and it ends
with an argument that comes to no value.  Otherwise it runs the constructor of the parent
of the class whose constructor is running, for the receiver of the scope. -/
inductive RunsParent (ev : Evaluator) (args : List Expr) (scope : FrameRef) (span : Span)
    (here : Machine) : EStateM.Result Halt Machine Value → Prop where
  | outside (none : here.constructing = none) :
    RunsParent ev args scope span here (.error (.fault ⟨.superOutsideConstructor, span⟩) here)
  | base {cls : ClassRef} (running : here.constructing = some cls)
    (none : (here.heap.class cls).superclass = none) :
    RunsParent ev args scope span here
      (.error (.fault ⟨.noSuperclass (here.heap.class cls).name, span⟩) here)
  | unreceived {cls parent : ClassRef} (running : here.constructing = some cls)
    (above : (here.heap.class cls).superclass = some parent)
    (none : here.heap.lookup? scope receiverName = none) :
    RunsParent ev args scope span here (.error (.fault ⟨.noReceiver, span⟩) here)
  | interrupted {cls : ClassRef} {halt : Halt} {after : Machine}
    (running : here.constructing = some cls)
    (ended : ev.arguments scope args here = .error halt after) :
    RunsParent ev args scope span here (.error halt after)
  | runs {cls parent : ClassRef} {binding : Binding} {values : List Value} {ready : Machine}
    (running : here.constructing = some cls)
    (above : (here.heap.class cls).superclass = some parent)
    (receiver : here.heap.lookup? scope receiverName = some binding)
    (arguments : ev.arguments scope args here = .ok values ready) :
    RunsParent ev args scope span here
      ((do ev.runConstructor parent binding.value values scope span; pure .null : Run Value) ready)

/-- Run the constructor of the parent of a class, for a receiver. -/
def handOn (ev : Evaluator) (cls : ClassRef) (receiver : Value) (args : List Expr)
    (scope : FrameRef) (span : Span) : Run Value := do
  let parent ← Run.parentOf cls span
  let values ← ev.arguments scope args
  ev.runConstructor parent receiver values scope span
  pure .null

theorem superConstructor_apply (ev : Evaluator) (args : List Expr) (scope : FrameRef)
    (span : Span) (here : Machine) :
    ev.superConstructor args scope span here =
      match here.constructing with
      | none => .error (.fault ⟨.superOutsideConstructor, span⟩) here
      | some cls => (do
        let parent ← Run.parentOf cls span
        let receiver ← Run.receiver scope span
        let values ← ev.arguments scope args
        ev.runConstructor parent receiver values scope span
        pure .null : Run Value) here := by
  show (match here.constructing with
    | none => Run.fail .superOutsideConstructor span
    | some cls => (do
      let parent ← Run.parentOf cls span
      let receiver ← Run.receiver scope span
      let values ← ev.arguments scope args
      ev.runConstructor parent receiver values scope span
      pure .null) : Run Value) here = _
  cases here.constructing <;> rfl

theorem superConstructor_runsParent (ev : Evaluator) (args : List Expr) (scope : FrameRef)
    (span : Span) (here : Machine) :
    ev.RunsParent args scope span here (ev.superConstructor args scope span here) := by
  rw [superConstructor_apply]
  cases running : here.constructing with
  | none => exact .outside running
  | some cls =>
      have parent := Run.parentOf_apply cls span here
      have receiver := Run.receiver_apply scope span here
      dsimp only
      cases above : (here.heap.class cls).superclass with
      | none =>
          rw [above] at parent
          rw [Run.bind_of_error parent]
          exact .base running above
      | some found =>
          rw [above] at parent
          rw [Run.bind_of_ok parent]
          cases bound : here.heap.lookup? scope receiverName with
          | none =>
              rw [bound] at receiver
              rw [Run.bind_of_error receiver]
              exact .unreceived running above bound
          | some binding =>
              rw [bound] at receiver
              rw [Run.bind_of_ok receiver]
              cases ended : ev.arguments scope args here with
              | error halt after =>
                  rw [Run.bind_of_error ended]
                  exact .interrupted running ended
              | ok values ready =>
                  rw [Run.bind_of_ok ended]
                  exact .runs running above bound ended

/-! ## In the own code of a constructor -/

/-- Where the machine and the scope belong together, the receiver is handed on. -/
theorem handOn_eq_superConstructor {receiver : Value} {isConstant : Bool}
    (running : here.constructing = some cls)
    (known : here.heap.lookup? scope receiverName = some ⟨receiver, isConstant⟩) :
    ev.handOn cls receiver args scope span here = ev.superConstructor args scope span here := by
  have asked := Run.receiver_apply scope span here
  rw [known] at asked
  have parent := Run.parentOf_apply cls span here
  rw [superConstructor_apply, running, handOn]
  dsimp only
  cases above : (here.heap.class cls).superclass with
  | none =>
      rw [above] at parent
      rw [Run.bind_of_error parent, Run.bind_of_error parent]
  | some found =>
      rw [above] at parent
      rw [Run.bind_of_ok parent, Run.bind_of_ok parent, Run.bind_of_ok asked]

/-- In the own code of a constructor, the receiver is handed on to the parent of its class. -/
def handingOn (cls : ClassRef) (receiver : Value) (ev : Evaluator) (expr : Expr)
    (scope : FrameRef) : Option (Run Value) :=
  match expr with
  | ⟨.superConstructor args, span⟩ => some (ev.handOn cls receiver args scope span)
  | _ => none

/-- Run the constructor that a class declares, with own code that hands the receiver on. -/
def runOwnConstructor (fuel : Nat) (cls : ClassRef) (receiver : Value) (args : List Value)
    (span : Span) : Run Unit := do
  match ← Run.read fun heap => (heap.class cls).decl.constructor? with
  | none => pure ()
  | some method =>
    let closure ← Run.receiverScope cls receiver
    let _ ← Run.newFunction (.ofDecl method.function closure)
    let _ ← Run.constructingClass cls <| Run.deeper span <|
      (ownCode (handingOn cls receiver) fuel).activate method.function.displayName method.function
        closure (some receiver) args span

end Evaluator

/-- The names under which scopes hold the receiver and the owner of their code. -/
def IsReserved (name : String) : Prop :=
  name = receiverName ∨ name = ownerName

instance : DecidablePred IsReserved := fun name =>
  inferInstanceAs (Decidable (name = receiverName ∨ name = ownerName))

/-- The scopes of the code of a class that runs for a receiver, while the class is the one
under construction. -/
def Hosting.ofConstructor (cls : ClassRef) (receiver : Value) : Hosting where
  hidden := IsReserved
  owner := .inr rfl
  hosts machine scope :=
    machine.constructing = some cls ∧ machine.heap.Knows scope receiver cls
  stays onward hosted :=
    ⟨onward.constructing.trans hosted.1, hosted.2.mono onward.preserves (.inl rfl) (.inr rfl)⟩
  opens hosted :=
    ⟨hosted.1, hosted.2.receiver.inner rfl rfl, hosted.2.owner.inner rfl rfl⟩

theorem Hosting.ofConstructor_justifies (cls : ClassRef) (receiver : Value) :
    (Hosting.ofConstructor cls receiver).Justifies (Evaluator.handingOn cls receiver) := by
  intro ev other world expr scope run accords avoids hosted isRule
  obtain ⟨node, span⟩ := expr
  cases node with
  | superConstructor args =>
      cases isRule
      have argsAvoid : ∀ arg ∈ args, (Code.expr arg).Avoids IsReserved :=
        fun arg member => avoids.part (List.mem_map_of_mem member)
      refine (accords.superConstructor trivial (.inl hosted) argsAvoid).forget.congr
        fun machine onward => ?_
      have ⟨running, knows⟩ := (Hosting.ofConstructor cls receiver).stays onward.2 hosted
      exact Evaluator.handOn_eq_superConstructor running knows.receiver.lookup?_eq
  | _ => cases isRule

/-! ## Running a constructor -/

namespace Evaluator

/-- The function of a constructor is called with own code that hands its receiver on. -/
theorem call_eq_handingOn (machine : Machine) {cls : ClassRef} {receiver : Value}
    {decl : FunctionDecl} {closure : FrameRef} {ref : FunctionRef}
    (running : machine.constructing = some cls) (knows : machine.heap.Knows closure receiver cls)
    (stores : machine.heap.Stores (Code.Avoids IsReserved))
    (avoids : (Node.function decl).Avoids IsReserved)
    (body : (machine.heap.function ref).body = .closure decl closure) (fuel : Nat)
    (args : List Value) (scope : FrameRef) (span : Span) :
    (ofFuel (fuel + 1)).call (.function ref) (some receiver) args scope span machine =
      Run.deeper span ((ownCode (handingOn cls receiver) fuel).activate
        (machine.heap.function ref).name decl closure (some receiver) args span) machine := by
  have justified := Hosting.ofConstructor_justifies cls receiver
  refine Hosting.call_eq_ownCode justified stores avoids body ?_ fuel args scope span
  intro here onward
  refine ⟨onward.constructing.trans running, (knows.mono onward.preserves ?_ ?_).call⟩
  · exact .inl rfl
  · exact .inr rfl

/-- Where a method becomes a function, the closure is the scope that was made for it. -/
theorem materialize_apply {machine opened : Machine} {cls : ClassRef} {receiver : Value}
    {closure : FrameRef} (method : MethodDecl)
    (entered : Run.receiverScope cls receiver machine = .ok closure opened) :
    Run.materialize cls method receiver machine =
      Run.newFunction (.ofDecl method.function closure) opened :=
  Run.bind_of_ok entered

/-- Making a function of a method touches no reserved name in older frames. -/
theorem continues_materialize {machine made : Machine} {cls : ClassRef} {method : MethodDecl}
    {receiver value : Value} (stores : machine.heap.Stores (Code.Avoids IsReserved))
    (avoids : (Node.function method.function).Avoids IsReserved)
    (materialized : Run.materialize cls method receiver machine = .ok value made) :
    machine.Continues IsReserved made := by
  have relates : (Law.shielding IsReserved machine.heap stores).logic.Relates machine
      (Run.materialize cls method receiver) (Run.materialize cls method receiver)
      (Law.shielding IsReserved machine.heap stores).logic.Held :=
    .materialize Law.held avoids.consists Law.held
  have continues := Machine.Continues.leaves relates
  rw [Run.leaves, materialized] at continues
  exact continues

/-- A constructor runs with own code that hands its receiver on. -/
theorem runConstructor_eq_own {machine : Machine} {cls : ClassRef}
    (stores : machine.heap.Stores (Code.Avoids IsReserved))
    (avoids : ∀ method ∈ (machine.heap.class cls).decl.methods,
      (Node.function method.function).Avoids IsReserved)
    (fuel : Nat) (receiver : Value) (args : List Value) (scope : FrameRef) (span : Span) :
    (ofFuel (fuel + 1)).runConstructor cls receiver args scope span machine =
      runOwnConstructor fuel cls receiver args span machine := by
  have declares : Run.read (fun heap => (heap.class cls).decl.constructor?) machine =
      .ok (machine.heap.class cls).decl.constructor? machine := rfl
  rw [runConstructor, runOwnConstructor, Run.bind_of_ok declares, Run.bind_of_ok declares]
  cases found : (machine.heap.class cls).decl.constructor? with
  | none => rfl
  | some method =>
      have known := avoids method (List.mem_of_find?_eq_some found)
      obtain ⟨closure, opened, entered⟩ :
          ∃ closure opened, Run.receiverScope cls receiver machine = .ok closure opened :=
        ⟨_, _, rfl⟩
      let function : Function := .ofDecl method.function closure
      let ref := (opened.heap.allocFunction function).1
      let made : Machine := { opened with heap := (opened.heap.allocFunction function).2 }
      have created : Run.newFunction function opened = .ok (.function ref) made := rfl
      have materialized := (materialize_apply method entered).trans created
      have body : made.heap.function ref = function := Heap.function_allocFunction_self _ _
      have preserves : opened.heap.Preserves IsReserved made.heap :=
        opened.heap.preserves_allocFunction function
      have knows := (Heap.knows_of_receiverFrame (Run.receiverScope_ok entered).1).mono preserves
        (.inl rfl) (.inr rfl)
      -- The function is called while the class is the one under construction.
      have called := call_eq_handingOn { made with constructing := some cls } rfl knows
        (continues_materialize stores known materialized).stores known
        (congrArg Function.body body) fuel args scope span
      dsimp only at called
      rw [body] at called
      dsimp only
      rw [Run.bind_of_ok materialized, Run.bind_of_ok entered, Run.bind_of_ok created]
      exact Run.bind_apply_congr (Run.constructingClass_congr called) fun _ _ _ => rfl

/-! ## Making an instance -/

variable {machine after : Machine}

/-- Make an instance, with own code of its constructor that hands the instance on. -/
def constructOwnFrom (fuel : Nat) (cls : ClassRef) (args : List Expr) (scope : FrameRef)
    (span : Span) : Run Value := do
  let object ← (ofFuel (fuel + 1)).instantiate cls
  if (← Run.read fun heap => (heap.class cls).decl.constructor?).isSome then
    let values ← (ofFuel (fuel + 1)).arguments scope args
    runOwnConstructor fuel cls (.object object) values span
  pure (.object object)

/-- A new instance is linked to its class, unless a member of one of its classes takes the
place of the link or an initial value writes to the instance. -/
theorem instantiate_linked {fuel : Nat} {object : ObjectRef} (formed : machine.WellFormed)
    (held : machine.heap.Holds (.class cls))
    (fields : ∀ declared ∈ machine.heap.fieldsOf (machine.heap.lineage cls).reverse,
      declared.2.name ≠ classLinkName)
    (methods : ∀ declared ∈ machine.heap.methodsOf (machine.heap.lineage cls).reverse,
      declared.2.name ≠ classLinkName)
    (made : (ofFuel fuel).instantiate cls machine = .ok object after) :
    ∃ runs, (ofFuel fuel).Makes cls (machine.heap.lineage cls) machine object runs after ∧
      ((∀ run ∈ runs, run.Spares object) → after.heap.classOf? object = some cls) := by
  rcases instantiate_ok (Logic.sound_covers fuel) formed held made with ⟨runs, makes⟩
  refine ⟨runs, makes, fun spared => ?_⟩
  have unnamed : ∀ run ∈ runs, run.field.name ≠ classLinkName := fun run member =>
    fields run.source (makes.fields ▸ List.mem_map_of_mem member)
  have link := (makes.fresh spared).rest classLinkName methods unnamed
  rw [if_pos rfl] at link
  rw [Heap.classOf?, Object.stored?, link]
  rfl

section Making

variable (held : machine.heap.Holds (.class cls))
  (draws : machine.heap.Draws (Node.Avoids IsReserved))
  (stores : machine.heap.Stores (Code.Avoids IsReserved))
include held draws

/-- A constructor is run alike with own code, from each later machine on. -/
theorem relates_runOwnConstructor {world : Machine} (fuel : Nat) (receiver : Value)
    (args : List Value) (scope : FrameRef) (span : Span) :
    (Law.shielding IsReserved machine.heap stores).logic.Relates world
      ((ofFuel (fuel + 1)).runConstructor cls receiver args scope span)
      (runOwnConstructor fuel cls receiver args span) := by
  have covers : (Law.shielding IsReserved machine.heap stores).logic.Covers
      (Code.Avoids IsReserved) (.ofFuel (fuel + 1)) (.ofFuel (fuel + 1)) :=
    Law.shielding_covers (fuel + 1)
  refine (covers.runConstructor trivial Law.held Law.held fun _ _ => Law.held).congr
    fun here onward => ?_
  have passes := onward.1.path.trans onward.2.path
  have grown := (Law.shielding_preserves passes).grows
  refine (runConstructor_eq_own (Heap.Path.stores passes stores) ?_ fuel receiver args scope
    span).symm
  rw [grown.declared cls held]
  exact fun method declared => draws.class cls _ (ClassDecl.mem_nodes_of_method declared)

/-- Making an instance is alike, with own code that hands the instance on. -/
theorem relates_constructOwnFrom {world : Machine} (fuel : Nat)
    (avoids : ∀ arg ∈ args, (Code.expr arg).Avoids IsReserved) :
    (Law.shielding IsReserved machine.heap stores).logic.Relates world
      ((ofFuel (fuel + 1)).constructFrom cls args scope span)
      (constructOwnFrom fuel cls args scope span) := by
  have covers : (Law.shielding IsReserved machine.heap stores).logic.Covers
      (Code.Avoids IsReserved) (.ofFuel (fuel + 1)) (.ofFuel (fuel + 1)) :=
    Law.shielding_covers (fuel + 1)
  refine (covers.instantiate Law.held fun _ known => known).andThen fun object => ?_
  refine Logic.Relates.reads.andThen fun found => ?_
  dsimp only
  split
  · refine (covers.arguments trivial avoids).andThen fun values => ?_
    exact (relates_runOwnConstructor held draws stores fuel _ values scope span).andThen
      fun _ => .done
  · exact .done

end Making

end Evaluator

/-! ## A class and its ancestors -/

/-- How the constructor of a class and those of its ancestors go together. -/
structure Machine.HandsOn (machine : Machine) (cls : ClassRef) : Prop where
  /-- Wherever `super(args)` stands, it runs the constructor of the parent of the class
  under construction for the receiver of the scope, or it is refused. -/
  everywhere : ∀ (ev : Evaluator) (args : List Expr) (scope : FrameRef) (span : Span),
    ev.RunsParent args scope span machine (ev.superConstructor args scope span machine)
  /-- In the own code of a constructor it hands the receiver of the constructor on. -/
  constructor : ∀ (fuel : Nat) (receiver : Value) (args : List Value) (scope : FrameRef)
    (span : Span),
    (Evaluator.ofFuel (fuel + 1)).runConstructor cls receiver args scope span machine =
      Evaluator.runOwnConstructor fuel cls receiver args span machine
  /-- The class that the scope of this code knows is the one whose constructor it is. -/
  scopes : ∀ (receiver : Value) (closure : FrameRef) (opened here : Machine),
    Run.receiverScope cls receiver machine = .ok closure opened →
    opened.heap.Preserves IsReserved here.heap →
    ∀ (scope : FrameRef) (entered : Machine),
      Run.enterCall closure (some receiver) here = .ok scope entered →
      entered.heap.Knows scope receiver cls
  /-- What the receiver is handed on to is the constructor of the immediate superclass. -/
  parent : ∀ parent, (machine.heap.class cls).superclass = some parent →
    parent ∈ (machine.heap.lineage cls).tail ∧
      ∀ (ev : Evaluator) (receiver : Value) (args : List Expr) (scope : FrameRef) (span : Span),
        ev.handOn cls receiver args scope span machine =
          (do
            let values ← ev.arguments scope args
            ev.runConstructor parent receiver values scope span
            pure .null : Run Value) machine
  /-- The first receiver is the instance that was just made. -/
  new : ∀ (fuel : Nat) (args : List Expr) (scope : FrameRef) (span : Span),
    (∀ arg ∈ args, (Code.expr arg).Avoids IsReserved) →
    (Evaluator.ofFuel (fuel + 1)).constructFrom cls args scope span machine =
      Evaluator.constructOwnFrom fuel cls args scope span machine
  /-- It is linked to its class, unless a member takes the place of the link or an initial
  value writes to the instance. -/
  linked : ∀ (fuel : Nat) (object : ObjectRef) (after : Machine),
    (∀ declared ∈ machine.heap.fieldsOf (machine.heap.lineage cls).reverse,
      declared.2.name ≠ classLinkName) →
    (∀ declared ∈ machine.heap.methodsOf (machine.heap.lineage cls).reverse,
      declared.2.name ≠ classLinkName) →
    (Evaluator.ofFuel fuel).instantiate cls machine = .ok object after →
    ∃ runs, (Evaluator.ofFuel fuel).Makes cls (machine.heap.lineage cls) machine object runs after ∧
      ((∀ run ∈ runs, run.Spares object) → after.heap.classOf? object = some cls)

/-- In each state that a program comes to which leaves the reserved names alone, and for
each class: what holds of `super(args)` wherever it stands, and what holds of it in the
own code of constructors. -/
theorem superConstructor_handsOn {machine : Machine} (avoids : machine.Avoids IsReserved)
    {cls : ClassRef} (held : machine.heap.Holds (.class cls)) : machine.HandsOn cls where
  everywhere ev args scope span := ev.superConstructor_runsParent args scope span machine
  constructor fuel receiver args scope span :=
    Evaluator.runConstructor_eq_own avoids.stores
      (fun _ declared => avoids.draws.class cls _ (ClassDecl.mem_nodes_of_method declared))
      fuel receiver args scope span
  scopes receiver closure opened here made preserves scope entered enters := by
    have knows := Heap.knows_of_receiverFrame (Run.receiverScope_ok made).1
    rw [Run.enterCall_apply] at enters
    cases enters
    exact (knows.mono preserves (.inl rfl) (.inr rfl)).call
  parent parent above := by
    refine ⟨?_, fun ev receiver args scope span => ?_⟩
    · rw [avoids.formed.heap.tail_lineage held above]
      exact List.mem_cons_self
    · have asked := Run.parentOf_apply cls span machine
      rw [above] at asked
      rw [Evaluator.handOn, Run.bind_of_ok asked]
  new fuel args scope span argsAvoid := by
    have relates : (Law.shielding IsReserved machine.heap avoids.stores).logic.Relates machine
        ((Evaluator.ofFuel (fuel + 1)).constructFrom cls args scope span)
        (Evaluator.constructOwnFrom fuel cls args scope span) :=
      Evaluator.relates_constructOwnFrom held avoids.draws avoids.stores fuel argsAvoid
    exact (relates.eq ⟨⟨.refl, trivial⟩, .refl machine⟩ fun _ => id).symm
  linked fuel object after fields methods made :=
    Evaluator.instantiate_linked avoids.formed held fields methods made

/-- A constructor with one statement. -/
def constructorOf (stmt : Stmt) : MethodDecl where
  name := "constructor"
  traits := { isConstructor := true }
  function := ⟨none, [], [stmt], {}⟩

/-- The constructor of the first class writes to its receiver, and that of the second one
only asks its parent to. -/
def writingParent : List Stmt := [
  { node := .class ⟨"A", none, [], [
      constructorOf ⟨.assign ⟨.member ⟨.receiver, {}⟩ "x" false, {}⟩ ⟨.bool true, {}⟩, {}⟩], {}⟩ },
  { node := .class ⟨"B", some "A", [], [
      constructorOf ⟨.expression ⟨.superConstructor [], {}⟩, {}⟩], {}⟩ }]

theorem writingParent_avoids : (Request.execute writingParent).Avoids IsReserved := by
  intro stmt member
  rcases List.mem_cons.mp member with rfl | member
  · refine .intro (by decide) fun part inside => ?_
    rw [List.mem_singleton.mp inside]
    refine .intro nofun fun part inside => ?_
    rw [List.mem_singleton.mp inside]
    refine .intro nofun fun part inside => ?_
    rcases List.mem_cons.mp inside with rfl | inside
    · refine .intro nofun fun part inside => ?_
      rw [List.mem_singleton.mp inside]
      exact .intro nofun nofun
    · rw [List.mem_singleton.mp inside]
      exact .intro nofun nofun
  · rw [List.mem_singleton.mp member]
    refine .intro (by decide) fun part inside => ?_
    rw [List.mem_singleton.mp inside]
    refine .intro nofun fun part inside => ?_
    rw [List.mem_singleton.mp inside]
    refine .intro nofun fun part inside => ?_
    rw [List.mem_singleton.mp inside]
    exact .intro nofun nofun

/-- A new instance of the second class gets what the constructor of the first one writes. -/
theorem superConstructor_handsOn_writingParent :
    let machine := ((Request.execute writingParent).run (.ofFuel 9)).leaves (.new {} none)
    let new := (Evaluator.ofFuel 9).constructFrom ⟨1⟩ [] ⟨0⟩ {}
    let object : ObjectRef := ⟨machine.heap.objects.size⟩
    machine.HandsOn ⟨1⟩ ∧ (machine.heap.class ⟨1⟩).superclass = some ⟨0⟩ ∧
      new.succeeds machine = true ∧ (new.leaves machine).heap.classOf? object = some ⟨1⟩ ∧
      (((new.leaves machine).heap.object object).stored? "x").isSome = true := by
  intro machine new object
  have avoids : machine.Avoids IsReserved :=
    AvoidingSession.avoids (.asked .opened 9 (.execute writingParent) trivial writingParent_avoids)
  have held : machine.heap.Holds (.class ⟨1⟩) := show 1 < machine.heap.classes.size by
    decide +kernel
  refine ⟨superConstructor_handsOn avoids held, ?_, ?_, ?_, ?_⟩
  all_goals decide +kernel

end Hati
