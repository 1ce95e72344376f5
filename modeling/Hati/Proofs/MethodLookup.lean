import Hati.Proofs.FreshInstance

namespace Hati

/-!
# Two ways to a method

A call of the parent's method climbs from class to class and takes the first method of
the name that a class declares.  An instance has its methods installed from the base
class down, and what is installed later replaces what stood there.  Both come to the
same class, the nearest one that declares the name.  But in this class the one takes
the first declaration and the other the last, so they come to the same method only
where the class declares the name once.
-/

/-! ## Within one class -/

namespace ClassDecl

/-- The instance methods of that name, in the order of their declaration. -/
def methodsNamed (decl : ClassDecl) (name : String) : List MethodDecl :=
  decl.instanceMethods.filter (·.name == name)

/-- A search takes the first. -/
theorem method?_eq_head? (decl : ClassDecl) (name : String) :
    decl.method? name false = (decl.methodsNamed name).head? := by
  rw [methodsNamed, List.head?_filter, instanceMethods, List.find?_filter, method?]
  congr 1
  funext method
  cases method.traits.isStatic <;> cases method.isPlain <;> simp [Bool.beq_eq_decide_eq]

/-- The last one stays when methods are installed. -/
theorem find?_reverse_eq_getLast? (decl : ClassDecl) (name : String) :
    decl.instanceMethods.reverse.find? (·.name == name) = (decl.methodsNamed name).getLast? := by
  rw [methodsNamed, ← List.head?_reverse, ← List.filter_reverse, List.head?_filter]

end ClassDecl

theorem eq_of_length_one {α : Type} {l : List α} {first last : α} (isFirst : l.head? = some first)
    (isLast : l.getLast? = some last) (single : l.length = 1) : last = first := by
  rcases List.length_eq_one_iff.mp single with ⟨only, rfl⟩
  cases isFirst
  cases isLast
  rfl

/-! ## Along the classes -/

/-- Two searches that hit in the same places hit in the same place. -/
theorem findSome?_together {α β γ : Type} {f : α → Option β} {g : α → Option γ} (l : List α)
    (together : ∀ a, f a = none ↔ g a = none) :
    (l.findSome? f = none ∧ l.findSome? g = none) ∨
      ∃ a b c, f a = some b ∧ g a = some c ∧ l.findSome? f = some b ∧ l.findSome? g = some c := by
  induction l with
  | nil => exact .inl ⟨rfl, rfl⟩
  | cons a l ih =>
      rw [List.findSome?_cons, List.findSome?_cons]
      cases first : f a with
      | none =>
          rw [(together a).mp first]
          exact ih
      | some b =>
          cases second : g a with
          | none =>
              rw [(together a).mpr second] at first
              cases first
          | some c => exact .inr ⟨a, b, c, first, second, rfl, rfl⟩

namespace Heap

variable {heap after : Heap}

/-- The last installed method of a name is one of the nearest class that has one. -/
theorem find?_methodsOf (heap : Heap) (owners : List ClassRef) (name : String) :
    (heap.methodsOf owners.reverse).reverse.find? (·.2.name == name) =
      owners.findSome? fun owner =>
        ((heap.class owner).decl.methodsNamed name).getLast?.map (owner, ·) := by
  rw [methodsOf, List.reverse_flatMap, List.reverse_reverse, List.find?_flatMap]
  congr 1
  funext owner
  rw [Function.comp_apply, ← List.map_reverse, List.find?_map,
    ← ClassDecl.find?_reverse_eq_getLast?]
  rfl

/-- The climb and the installation come to the same class, if they come to any. -/
theorem findMethod?_or_none (heap : Heap) (cls : ClassRef) (name : String) :
    (heap.findMethod? cls name = none ∧
        ∀ declared ∈ heap.methodsOf (heap.lineage cls).reverse, declared.2.name ≠ name) ∨
      ∃ owner first last, heap.findMethod? cls name = some (owner, first) ∧
        ((heap.class owner).decl.methodsNamed name).head? = some first ∧
        ((heap.class owner).decl.methodsNamed name).getLast? = some last ∧
        (heap.methodsOf (heap.lineage cls).reverse).reverse.find? (·.2.name == name) =
          some (owner, last) := by
  have together : ∀ owner : ClassRef,
      ((heap.class owner).decl.method? name false).map (fun method => (owner, method)) = none ↔
        ((heap.class owner).decl.methodsNamed name).getLast?.map (owner, ·) = none := by
    intro owner
    rw [Option.map_eq_none_iff, Option.map_eq_none_iff, ClassDecl.method?_eq_head?,
      List.head?_eq_none_iff, List.getLast?_eq_none_iff]
  rw [find?_methodsOf]
  rcases findSome?_together (heap.lineage cls) together with
    ⟨missed, silent⟩ | ⟨owner, chosen, other, climbs, installs, found, stays⟩
  · refine .inl ⟨missed, fun declared member named => ?_⟩
    rw [← find?_methodsOf, List.find?_eq_none] at silent
    exact silent declared (List.mem_reverse.mpr member) (by simp [named])
  · rcases Option.map_eq_some_iff.mp climbs with ⟨first, isFirst, rfl⟩
    rcases Option.map_eq_some_iff.mp installs with ⟨last, isLast, rfl⟩
    rw [ClassDecl.method?_eq_head?] at isFirst
    exact .inr ⟨owner, first, last, found, isFirst, isLast, stays⟩

theorem Grows.ancestorsFrom (formed : heap.WellFormed) (grown : heap.Grows after) :
    ∀ (count : Nat) {cls : ClassRef}, heap.Holds (.class cls) →
      after.ancestorsFrom count cls = heap.ancestorsFrom count cls
  | 0, _, _ => rfl
  | count + 1, cls, held => by
      unfold Heap.ancestorsFrom
      rw [grown.declared cls held]
      cases above : (heap.class cls).superclass with
      | none => rfl
      | some parent =>
          have further := grown.ancestorsFrom formed count (formed.superclass held above)
          exact congrArg (cls :: ·) further

/-- A search for a method comes to the same end however the heap has grown. -/
theorem Grows.findMethod? (formed : heap.WellFormed) (grown : heap.Grows after)
    {cls : ClassRef} (held : heap.Holds (.class cls)) (name : String) :
    after.findMethod? cls name = heap.findMethod? cls name := by
  have declares : ∀ owner ∈ heap.lineage cls,
      ((after.class owner).decl.method? name false).map (owner, ·) =
        ((heap.class owner).decl.method? name false).map (owner, ·) := by
    intro owner member
    rw [grown.declared owner (formed.mem_ancestorsFrom held member)]
  have searched := congrArg (List.findSome? id) (List.map_congr_left declares)
  rw [List.findSome?_map, List.findSome?_map] at searched
  rw [Heap.findMethod?, lineage, grown.ancestorsFrom formed _ held]
  exact searched

/-- What the table of a new instance has where no method was installed. -/
theorem IsFreshInstance.get?_of_no_method {object : ObjectRef} {link : Property}
    {runs : List FieldRun} {methods : List (ClassRef × MethodDecl)}
    (fresh : heap.IsFreshInstance object link runs methods) {name : String}
    (none : ∀ declared ∈ methods, declared.2.name ≠ name) :
    (heap.object object).properties.get? name =
      ((runs.reverse.find? (·.field.name == name)).map FieldRun.property).or
        (if name = classLinkName then some link else .none) := by
  cases last : runs.reverse.find? (·.field.name == name) with
  | some run => exact fresh.field name run none last
  | none =>
      refine fresh.rest name none fun run member named => ?_
      exact List.find?_eq_none.mp last run (List.mem_reverse.mpr member) (by simp [named])

end Heap

/-! ## Calls of the parent's method -/

namespace Run

theorem parentOf_apply (cls : ClassRef) (span : Span) (machine : Machine) :
    Run.parentOf cls span machine =
      match (machine.heap.class cls).superclass with
      | some parent => .ok parent machine
      | none => .error (.fault ⟨.noSuperclass (machine.heap.class cls).name, span⟩) machine := by
  show (match (machine.heap.class cls).superclass with
    | some parent => pure parent
    | none => (do Run.fail (.noSuperclass (← Run.read fun heap => (heap.class cls).name)) span) :
      Run ClassRef) machine = _
  cases (machine.heap.class cls).superclass <;> rfl

theorem receiver_apply (scope : FrameRef) (span : Span) (machine : Machine) :
    Run.receiver scope span machine =
      match machine.heap.lookup? scope receiverName with
      | some binding => .ok binding.value machine
      | none => .error (.fault ⟨.noReceiver, span⟩) machine := by
  show (match machine.heap.lookup? scope receiverName with
    | some binding => pure binding.value
    | none => fail .noReceiver span : Run Value) machine = _
  cases machine.heap.lookup? scope receiverName <;> rfl

end Run

namespace Evaluator

variable {ev : Evaluator} {cls sub : ClassRef} {machine after : Machine} {object : ObjectRef}

/-- What a call of the parent's method does in the code of a direct subclass, when the
search has come to this end. -/
def climbsTo (ev : Evaluator) (sub : ClassRef) (chosen : Option (ClassRef × MethodDecl))
    (name : String) (args : List Expr) (scope : FrameRef) (span : Span) : Run Value := do
  match chosen with
  | none => Run.fail (.noSuperMethod (← Run.read fun heap => (heap.class sub).name) name) span
  | some (owner, method) =>
    let receiver ← Run.receiver scope span
    let values ← ev.arguments scope args
    let function ← Run.materialize owner method receiver
    ev.call function (some receiver) values scope span

/-- The code of a scope belongs to the class that the scope knows as its owner. -/
theorem owner?_of_class {here : Machine} {scope : FrameRef} {isConstant : Bool}
    (owned : here.heap.lookup? scope ownerName = some ⟨.class cls, isConstant⟩) :
    owner? scope here = .ok (some cls) here := by
  simp only [owner?, Bind.bind, EStateM.bind, Run.read, owned]
  rfl

theorem superMethod_eq_climbsTo {here : Machine} {scope : FrameRef} {isConstant : Bool}
    (owned : here.heap.lookup? scope ownerName = some ⟨.class sub, isConstant⟩)
    (above : (here.heap.class sub).superclass = some cls) (name : String) (args : List Expr)
    (span : Span) :
    ev.superMethod name args scope span here =
      ev.climbsTo sub (here.heap.findMethod? cls name) name args scope span here := by
  have parent := Run.parentOf_apply sub span here
  rw [above] at parent
  rw [superMethod, Run.bind_of_ok (owner?_of_class owned)]
  refine (Run.bind_of_ok parent).trans ?_
  have searched : Run.read (fun heap => heap.findMethod? cls name) here =
      .ok (here.heap.findMethod? cls name) here := rfl
  refine (Run.bind_of_ok searched).trans ?_
  cases here.heap.findMethod? cls name with
  | none => rfl
  | some chosen => rfl

/-- The two ways to a method of that name: what a new instance of a class has under it,
and what the code of a direct subclass calls from then on.  They come to the first and
to the last of the methods that the nearest class declares, or both to no method. -/
structure Dispatches (ev : Evaluator) (cls : ClassRef) (name : String) (machine : Machine)
    (object : ObjectRef) (runs : List FieldRun) (after : Machine) : Prop where
  climbs : ∀ (here : Machine) (scope : FrameRef) (sub : ClassRef) (isConstant : Bool)
    (args : List Expr) (span : Span), machine.heap.Grows here.heap →
    here.heap.lookup? scope ownerName = some ⟨.class sub, isConstant⟩ →
    (here.heap.class sub).superclass = some cls →
    ev.superMethod name args scope span here =
      ev.climbsTo sub (machine.heap.findMethod? cls name) name args scope span here
  installs : ∀ owner first, machine.heap.findMethod? cls name = some (owner, first) →
    ((machine.heap.class owner).decl.methodsNamed name).head? = some first ∧
      ∃ last property,
        ((machine.heap.class owner).decl.methodsNamed name).getLast? = some last ∧
        (((machine.heap.class owner).decl.methodsNamed name).length = 1 → last = first) ∧
        (after.heap.object object).properties.get? name = some property ∧
        after.heap.Installs object (owner, last) (name, property)
  lacks : machine.heap.findMethod? cls name = none →
    (after.heap.object object).properties.get? name =
      ((runs.reverse.find? (·.field.name == name)).map FieldRun.property).or
        (if name = classLinkName then
          some (classLink cls (machine.heap.class cls).decl.span) else none)

/-- Whatever a class and its ancestors declare, a new instance has a method of a name
exactly if the climb from the class finds one, and it is declared by the same class: the
climb takes its first method of that name, and the instance has its last. -/
theorem instantiate_dispatches {fuel : Nat} (formed : machine.WellFormed)
    (held : machine.heap.Holds (.class cls))
    (made : (ofFuel fuel).instantiate cls machine = .ok object after) :
    ∃ runs, (ofFuel fuel).Makes cls (machine.heap.lineage cls) machine object runs after ∧
      ((∀ run ∈ runs, run.Spares object) →
        ∀ name, (ofFuel fuel).Dispatches cls name machine object runs after) := by
  rcases instantiate_ok (Logic.sound_covers fuel) formed held made with ⟨runs, makes⟩
  refine ⟨runs, makes, fun spared name => ?_⟩
  have fresh := makes.fresh spared
  constructor
  · intro here scope sub isConstant args span grown owned above
    rw [superMethod_eq_climbsTo owned above, grown.findMethod? formed.heap held]
  · intro owner first found
    rcases machine.heap.findMethod?_or_none cls name with
      ⟨missed, -⟩ | ⟨nearest, head, last, climbs, isFirst, isLast, stays⟩
    · rw [missed] at found
      cases found
    · cases climbs.symm.trans found
      rcases fresh.method name _ stays with ⟨property, stored, installs⟩
      exact ⟨isFirst, last, property, isLast, eq_of_length_one isFirst isLast, stored, installs⟩
  · intro missed
    rcases machine.heap.findMethod?_or_none cls name with
      ⟨-, none⟩ | ⟨nearest, head, last, climbs, -⟩
    · exact fresh.get?_of_no_method none
    · rw [missed] at climbs
      cases climbs

/-- A class that declares a method twice, the second time with something in it. -/
def twice : List Stmt := [
  { node := .class ⟨"P", none, [], [emptyMethod "m" {},
      { name := "m", function := ⟨"m", [], [⟨.return none, {}⟩], {}⟩ }], {}⟩ }]

/-- The climb takes the method with nothing in it, and the instance has the other. -/
theorem instantiate_dispatches_twice :
    let machine := ((Request.execute twice).run (.ofFuel 9)).leaves (.new {} none)
    ∃ object after runs, (ofFuel 9).instantiate ⟨0⟩ machine = .ok object after ∧
      (ofFuel 9).Dispatches ⟨0⟩ "m" machine object runs after ∧
      ∃ first last property, machine.heap.findMethod? ⟨0⟩ "m" = some (⟨0⟩, first) ∧
        first.function.body.length = 0 ∧
        (after.heap.object object).properties.get? "m" = some property ∧
        after.heap.Installs object (⟨0⟩, last) ("m", property) ∧
        last.function.body.length = 1 := by
  intro machine
  have succeeds : ((ofFuel 9).instantiate ⟨0⟩).succeeds machine = true := by decide +kernel
  rcases Run.ok_of_succeeds succeeds with ⟨object, after, made⟩
  have formed : machine.WellFormed :=
    (Session.heap_wellFormed (.asked .opened 9 (.execute twice) trivial) .opened).1
  have held : machine.heap.Holds (.class ⟨0⟩) := show 0 < machine.heap.classes.size by
    decide +kernel
  rcases instantiate_dispatches formed held made with ⟨runs, makes, dispatches⟩
  have fieldless : runs = [] := by
    have none : machine.heap.fieldsOf (machine.heap.lineage ⟨0⟩).reverse = [] := by
      rw [← List.isEmpty_iff]
      decide +kernel
    exact List.map_eq_nil_iff.mp (makes.fields.trans none)
  have dispatches := dispatches (by rw [fieldless]; exact nofun) "m"
  refine ⟨object, after, runs, made, dispatches, ?_⟩
  have finds : (machine.heap.findMethod? ⟨0⟩ "m").map (fun chosen =>
      (chosen.1, chosen.2.function.body.length)) = some (⟨0⟩, 0) := by
    decide +kernel
  rcases Option.map_eq_some_iff.mp finds with ⟨⟨owner, first⟩, found, same⟩
  obtain ⟨rfl, empty⟩ := Prod.mk.inj same
  rcases dispatches.installs _ first found with ⟨-, last, property, isLast, -, stored, installs⟩
  have ends : ((machine.heap.class ⟨0⟩).decl.methodsNamed "m").getLast?.map
      (·.function.body.length) = some 1 := by
    decide +kernel
  rw [isLast] at ends
  exact ⟨first, last, property, found, empty, stored, installs, Option.some.inj ends⟩

end Evaluator

end Hati
