import Hati.Proofs.StaticPrivacy
import Hati.Proofs.SuperConstructors

namespace Hati

/-!
# Access to the static side of a class

Code that runs for an object may use the private properties on the static side of a class
if the object is linked to this class.  Nothing else about the object counts, nor does the
class that declares the code.  A new instance is linked to the class that it was made of, so
a method opens the static side of its own class when it runs for an instance of this class,
but not when a derived class has inherited it.

The link is a property of the object and can be lost like others.  What is said here holds
at each moment at which the link is there.
-/

/-! ## Code that runs for an object -/

namespace Heap

/-- Going outwards from a scope, some frame holds the object as the receiver. -/
inductive RunsFor (heap : Heap) (object : ObjectRef) : FrameRef → Prop
  | here {ref : FrameRef} {isConstant : Bool} (inside : heap.HasFrame ref)
    (bound : heap.localBinding? ref receiverName = some ⟨.object object, isConstant⟩) :
    RunsFor heap object ref
  | outer {ref parent : FrameRef} (inside : heap.HasFrame ref)
    (around : heap.outer? ref = some parent) (older : parent.index < ref.index)
    (runs : RunsFor heap object parent) : RunsFor heap object ref

namespace RunsFor

variable {heap after : Heap} {object : ObjectRef} {scope : FrameRef}

theorem inside (runs : heap.RunsFor object scope) : heap.HasFrame scope := by
  cases runs <;> assumption

theorem mem_receivers (runs : heap.RunsFor object scope) :
    .object object ∈ heap.receivers scope := by
  have walked : ∀ count, scope.index < count → .object object ∈
      (heap.framesFrom count scope).filterMap fun ref =>
        (heap.localBinding? ref receiverName).map Binding.value := by
    induction runs with
    | @here ref isConstant inside bound =>
        intro count below
        obtain ⟨count, rfl⟩ : ∃ less, count = less + 1 := ⟨count - 1, by omega⟩
        refine List.mem_filterMap.mpr ⟨ref, List.mem_cons_self, ?_⟩
        rw [bound]
        rfl
    | @outer ref parent inside around older _ ih =>
        intro count below
        obtain ⟨count, rfl⟩ : ∃ less, count = less + 1 := ⟨count - 1, by omega⟩
        have leads : (heap.frame ref).parent = some parent := around
        obtain ⟨frame, inChain, holds⟩ := List.mem_filterMap.mp
          (ih count (Nat.lt_of_lt_of_le older (Nat.le_of_lt_succ below)))
        refine List.mem_filterMap.mpr ⟨frame, ?_, holds⟩
        rw [framesFrom, leads]
        exact List.mem_cons_of_mem ref inChain
  exact walked _ (Nat.lt_succ_self _)

/-- It is so for good. -/
theorem mono {hidden : String → Prop} (runs : heap.RunsFor object scope)
    (preserves : heap.Preserves hidden after) (isHidden : hidden receiverName) :
    after.RunsFor object scope := by
  induction runs with
  | here inside bound =>
      exact .here (inside.mono preserves.grows)
        ((preserves.bindings _ _ inside isHidden).trans bound)
  | outer inside around older _ ih =>
      exact .outer (inside.mono preserves.grows) ((preserves.grows.parents _ inside).trans around)
        older ih

/-- Scopes inside run for the object as well, also those of calls for another receiver. -/
theorem inner (runs : heap.RunsFor object scope) {frame : Frame}
    (inside : frame.parent = some scope) :
    (heap.allocFrame frame).2.RunsFor object (heap.allocFrame frame).1 := by
  have preserves : heap.Preserves (fun _ => True) (heap.allocFrame frame).2 :=
    preserves_allocFrame heap frame
  refine .outer (hasFrame_allocFrame heap frame) ?_ runs.inside (runs.mono preserves trivial)
  rw [outer?, frame_allocFrame]
  exact inside

theorem ofReceiverFrame {cls : ClassRef}
    (frame : heap.frame scope = heap.receiverFrame cls (.object object)) :
    heap.RunsFor object scope := by
  have bound : heap.localBinding? scope receiverName = some ⟨.object object, false⟩ := by
    rw [localBinding?, frame]
    rfl
  exact .here (hasFrame_of_parent (congrArg Frame.parent frame)) bound

end RunsFor

/-! ## Inside the static side -/

variable {heap : Heap} {cls : ClassRef} {object : ObjectRef} {scope : FrameRef}

theorem isInternal_of_linked (bound : .object object ∈ heap.receivers scope)
    (linked : heap.classOf? object = some cls) :
    heap.isInternal scope (heap.class cls).statics = true := by
  refine List.any_eq_true.mpr ⟨_, bound, ?_⟩
  simp [linked]

theorem isInternal_of_itself (bound : .object object ∈ heap.receivers scope) :
    heap.isInternal scope object = true := by
  refine List.any_eq_true.mpr ⟨_, bound, ?_⟩
  simp

/-- Only the static side itself and objects that are linked to its class get inside. -/
theorem WellFormed.isInternal_statics_iff (formed : heap.WellFormed)
    (held : heap.Holds (.class cls)) :
    heap.isInternal scope (heap.class cls).statics = true ↔
      ∃ ref, .object ref ∈ heap.receivers scope ∧
        (ref = (heap.class cls).statics ∨ heap.classOf? ref = some cls) := by
  refine ⟨formed.receiver_of_isInternal held, ?_⟩
  rintro ⟨ref, bound, rfl | linked⟩
  · exact isInternal_of_itself bound
  · exact isInternal_of_linked bound linked

/-- The object is linked to the class, but code that runs for it is kept out of the static
side of the class. -/
def keepsOut (heap : Heap) (cls : ClassRef) (object : ObjectRef) (scope : FrameRef) : Bool :=
  heap.classOf? object == some cls && !heap.isInternal scope (heap.class cls).statics

theorem RunsFor.keepsOut_eq_false (runs : heap.RunsFor object scope) (cls : ClassRef) :
    heap.keepsOut cls object scope = false := by
  by_cases linked : heap.classOf? object = some cls
  · rw [keepsOut, isInternal_of_linked runs.mem_receivers linked, Bool.not_true, Bool.and_false]
  · rw [keepsOut, beq_false_of_ne linked, Bool.false_and]

end Heap

/-! ## Reading and writing without being asked -/

namespace Evaluator

/-- Read a property as if it were not private. -/
def readFreely (ev : Evaluator) (ref : ObjectRef) (key : String) (scope : FrameRef)
    (span : Span) : Run Value := do
  match ← Run.read fun heap => (heap.object ref).properties.get? key with
  | none => pure .null
  | some property =>
    if property.isGetter then ev.call property.value (some (.object ref)) [] scope span
    else pure property.value

end Evaluator

/-- What a write does to a property as if it were neither private nor locked. -/
def Heap.freeEffect (heap : Heap) (ref : ObjectRef) (key : String) : Except Cause WriteEffect :=
  if (heap.object ref).isFrozen then .ok .ignored
  else
    match (heap.object ref).properties.get? key with
    | none => .ok .added
    | some property =>
      if property.access.isReadonly then .error (.readonlyWritten key) else .ok .replaced

namespace Run

/-- Write a property as if it were neither private nor locked. -/
def writeFreely (ref : ObjectRef) (key : String) (value : Value) (span : Span) : Run Unit := do
  match ← lift span (← read fun heap => heap.freeEffect ref key) with
  | .ignored => pure ()
  | .added => insertProperty ref key { value, span }
  | .replaced =>
    modifyHeap fun heap => heap.modifyObject ref fun object => object.replaceValue key value

end Run

section Access

variable {ev : Evaluator} {ref : ObjectRef} {key : String} {value : Value} {scope : FrameRef}
  {span : Span} {machine : Machine} {cls : ClassRef} {property : Property} {refusal : Cause}

theorem readProperty_of_isInternal (internal : machine.heap.isInternal scope ref = true) :
    ev.readProperty ref key scope span machine = ev.readFreely ref key scope span machine := by
  have readable : machine.heap.readableProperty scope ref key =
      .ok ((machine.heap.object ref).properties.get? key) := by
    unfold Heap.readableProperty
    cases (machine.heap.object ref).properties.get? key with
    | none => rfl
    | some property => simp [internal]
  show (Run.lift span (machine.heap.readableProperty scope ref key) >>= _) machine = _
  rw [readable]
  rfl

theorem writeProperty_of_isInternal (internal : machine.heap.isInternal scope ref = true) :
    Run.writeProperty ref key value scope span machine =
      Run.writeFreely ref key value span machine := by
  have unguarded : machine.heap.writeEffect scope ref key = machine.heap.freeEffect ref key := by
    unfold Heap.writeEffect Heap.freeEffect
    dsimp only
    rw [internal]
    cases (machine.heap.object ref).properties.get? key with
    | none => rfl
    | some property =>
        dsimp only
        cases property.access.guard? <;> rfl
  show (Run.lift span (machine.heap.writeEffect scope ref key) >>= _) machine = _
  rw [unguarded]
  rfl

theorem readProperty_of_outside
    (stored : (machine.heap.object ref).properties.get? key = some property)
    (isPrivate : property.access.isPrivate = true)
    (outside : machine.heap.isInternal scope ref = false) :
    ev.readProperty ref key scope span machine =
      .error (.fault ⟨.privateRead key, span⟩) machine := by
  have refused : machine.heap.readableProperty scope ref key = .error (.privateRead key) := by
    simp [Heap.readableProperty, stored, isPrivate, outside]
  show (Run.lift span (machine.heap.readableProperty scope ref key) >>= _) machine = _
  rw [refused]
  rfl

theorem writeProperty_of_outside (thawed : (machine.heap.object ref).isFrozen = false)
    (stored : (machine.heap.object ref).properties.get? key = some property)
    (isPrivate : property.access.isPrivate = true) (writable : property.access.isReadonly = false)
    (outside : machine.heap.isInternal scope ref = false) :
    Run.writeProperty ref key value scope span machine =
      .error (.fault ⟨.guardedWrite .private key, span⟩) machine := by
  have refused : machine.heap.writeEffect scope ref key =
      .error (.guardedWrite .private key) := by
    simp [Heap.writeEffect, thawed, stored, writable, Access.guard?, isPrivate, outside]
  show (Run.lift span (machine.heap.writeEffect scope ref key) >>= _) machine = _
  rw [refused]
  rfl

theorem readMember_class (unreflective : (Value.class cls).reflective? key = none) :
    ev.readMember (.class cls) key scope span machine =
      ev.readProperty (machine.heap.class cls).statics key scope span machine := by
  unfold Evaluator.readMember
  rw [unreflective]
  rfl

theorem writeMember_class :
    Run.writeMember (.class cls) key value refusal scope span machine =
      Run.writeProperty (machine.heap.class cls).statics key value scope span machine :=
  rfl

end Access

/-! ## Own code of functions that run for an object -/

namespace Evaluator

/-- Evaluate as usual, but raise the alarm where an object is linked to the class and its
code is kept out of the static side. -/
def vigilant (cls : ClassRef) (object : ObjectRef) (alarm : Halt) (ev : Evaluator) (expr : Expr)
    (scope : FrameRef) : Option (Run Value) :=
  some fun machine =>
    if machine.heap.keepsOut cls object scope then .error alarm machine
    else ev.expression expr scope machine

end Evaluator

theorem isReserved_ownerName : IsReserved ownerName :=
  .inr rfl

/-- The scopes of code that runs for an object. -/
def Hosting.ofObject (object : ObjectRef) : Hosting where
  hidden := IsReserved
  owner := isReserved_ownerName
  hosts machine scope := machine.heap.RunsFor object scope
  stays onward hosted := hosted.mono onward.preserves (.inl rfl)
  opens hosted := hosted.inner rfl

theorem Hosting.ofObject_justifies (cls : ClassRef) (object : ObjectRef) (alarm : Halt) :
    (Hosting.ofObject object).Justifies (Evaluator.vigilant cls object alarm) := by
  intro ev other world expr scope run accords avoids hosted isRule
  cases isRule
  have expression := accords.expression (.inl hosted) avoids (fun _ member => avoids.part member)
    fun _ _ known => known
  refine expression.forget.congr fun machine onward => ?_
  have runs : machine.heap.RunsFor object scope :=
    (Hosting.ofObject object).stays onward.2 hosted
  rw [runs.keepsOut_eq_false cls]
  rfl

/-! ## All states -/

/-- Who may use the private properties on the static side of a class, in a state of the
interpreter. -/
structure Machine.GrantsStatics (machine : Machine) (cls : ClassRef) : Prop where
  /-- Where a method that the class declares becomes a function for an object, the function
  is a closure of the method in a scope that runs for the object. -/
  methods : ∀ (method : MethodDecl) (object : ObjectRef) (value : Value) (after : Machine),
    Run.materialize cls method (.object object) machine = .ok value after →
    ∃ ref closure, value = .function ref ∧
      after.heap.function ref = .ofDecl method.function closure ∧
      after.heap.RunsFor object closure
  /-- What runs for an object does so for the whole session, and so do the scopes and the
  calls inside, for whatever receiver. -/
  lasts : ∀ (object : ObjectRef) (scope : FrameRef) (after : Machine),
    machine.heap.RunsFor object scope → AvoidingSession IsReserved machine after →
    after.heap.RunsFor object scope ∧
      ∀ (receiver : Option Value) (inner : FrameRef) (entered : Machine),
        (Run.newScope scope after = .ok inner entered ∨
          Run.enterCall scope receiver after = .ok inner entered) →
        entered.heap.RunsFor object inner
  /-- At any moment, also in the middle of an evaluation, code that runs for an object which
  is linked to the class uses the static side as if nothing there were private or locked. -/
  grants : ∀ (here : Machine) (object : ObjectRef) (scope : FrameRef),
    here.heap.RunsFor object scope → here.heap.classOf? object = some cls →
    (∀ (ev : Evaluator) (key : String) (span : Span),
      (Value.class cls).reflective? key = none →
      ev.readMember (.class cls) key scope span here =
        ev.readFreely (here.heap.class cls).statics key scope span here) ∧
    ∀ (key : String) (value : Value) (refusal : Cause) (span : Span),
      Run.writeMember (.class cls) key value refusal scope span here =
        Run.writeFreely (here.heap.class cls).statics key value span here
  /-- A function whose scope runs for an object is never kept out in its own code, while the
  object is linked to the class: an alarm at each expression makes no difference. -/
  calls : ∀ (ref : FunctionRef) (decl : FunctionDecl) (closure : FrameRef) (object : ObjectRef),
    (machine.heap.function ref).body = .closure decl closure →
    machine.heap.RunsFor object closure →
    ∀ (alarm : Halt) (fuel : Nat) (receiver : Option Value) (args : List Value)
      (scope : FrameRef) (span : Span),
      (Evaluator.ofFuel (fuel + 1)).call (.function ref) receiver args scope span machine =
        Run.deeper span ((Evaluator.ownCode (Evaluator.vigilant cls object alarm) fuel).activate
          (machine.heap.function ref).name decl closure receiver args span) machine
  /-- Code is inside the static side exactly if some receiver of its scope is the static side
  or is linked to the class. -/
  inside : ∀ scope, machine.heap.isInternal scope (machine.heap.class cls).statics = true ↔
    ∃ ref, .object ref ∈ machine.heap.receivers scope ∧
      (ref = (machine.heap.class cls).statics ∨ machine.heap.classOf? ref = some cls)
  /-- All other code is refused what is private. -/
  refuses : ∀ (scope : FrameRef) (key : String) (property : Property),
    machine.heap.isInternal scope (machine.heap.class cls).statics = false →
    (machine.heap.object (machine.heap.class cls).statics).properties.get? key = some property →
    property.access.isPrivate = true →
    (∀ (ev : Evaluator) (span : Span), (Value.class cls).reflective? key = none →
      ev.readMember (.class cls) key scope span machine =
        .error (.fault ⟨.privateRead key, span⟩) machine) ∧
    ∀ (value : Value) (refusal : Cause) (span : Span),
      (machine.heap.object (machine.heap.class cls).statics).isFrozen = false →
      property.access.isReadonly = false →
      Run.writeMember (.class cls) key value refusal scope span machine =
        .error (.fault ⟨.guardedWrite .private key, span⟩) machine
  /-- A new instance is linked to its class, unless a member takes the place of the link or an
  initial value writes to the instance. -/
  linked : ∀ (fuel : Nat) (object : ObjectRef) (after : Machine),
    (∀ declared ∈ machine.heap.fieldsOf (machine.heap.lineage cls).reverse,
      declared.2.name ≠ classLinkName) →
    (∀ declared ∈ machine.heap.methodsOf (machine.heap.lineage cls).reverse,
      declared.2.name ≠ classLinkName) →
    (Evaluator.ofFuel fuel).instantiate cls machine = .ok object after →
    ∃ runs, (Evaluator.ofFuel fuel).Makes cls (machine.heap.lineage cls) machine object runs after ∧
      ((∀ run ∈ runs, run.Spares object) → after.heap.classOf? object = some cls)

/-- In each state that a program comes to which leaves the reserved names alone, and for
each class. -/
theorem statics_grantedByLink {machine : Machine} (avoids : machine.Avoids IsReserved)
    {cls : ClassRef} (held : machine.heap.Holds (.class cls)) : machine.GrantsStatics cls where
  methods method object value after made := by
    obtain ⟨ref, closure, isFunction, function, frame⟩ := (Run.materialize_ok made).1
    exact ⟨ref, closure, isFunction, function, .ofReceiverFrame frame⟩
  lasts object scope after runs session := by
    have still := runs.mono (session.continues avoids.stores).preserves (.inl rfl)
    refine ⟨still, fun receiver inner entered enters => ?_⟩
    rcases enters with enters | enters
    · cases enters
      exact still.inner rfl
    · rw [Run.enterCall_apply] at enters
      cases enters
      exact still.inner rfl
  grants here object scope runs linked := by
    have internal := Heap.isInternal_of_linked runs.mem_receivers linked
    refine ⟨fun ev key span unreflective => ?_, fun key value refusal span => ?_⟩
    · rw [readMember_class unreflective, readProperty_of_isInternal internal]
    · rw [writeMember_class, writeProperty_of_isInternal internal]
  calls ref decl closure object body runs alarm fuel receiver args scope span := by
    refine Hosting.call_eq_ownCode (Hosting.ofObject_justifies cls object alarm)
      avoids.stores (avoids.draws.function body) body ?_ fuel args scope span
    intro here onward
    exact (runs.mono onward.preserves (.inl rfl)).inner rfl
  inside scope := avoids.formed.heap.isInternal_statics_iff held
  refuses scope key property outside stored isPrivate := by
    refine ⟨fun ev span unreflective => ?_, fun value refusal span thawed writable => ?_⟩
    · rw [readMember_class unreflective, readProperty_of_outside stored isPrivate outside]
    · rw [writeMember_class,
        writeProperty_of_outside thawed stored isPrivate writable outside]
  linked fuel object after fields methods made :=
    Evaluator.instantiate_linked avoids.formed held fields methods made

/-- A static property, read through the class. -/
def secret : Expr where
  node := .member ⟨.name "C", {}⟩ "secret" false

/-- A class with a secret on its static side and two methods that use it, and a class that
inherits the methods. -/
def secretive : List Stmt :=
  let peek : FunctionDecl := ⟨some "peek", [], [⟨.return (some secret), {}⟩], {}⟩
  let poke : FunctionDecl := ⟨some "poke", [], [⟨.assign secret ⟨.bool true, {}⟩, {}⟩], {}⟩
  [{ node := .class ⟨"C", none, [⟨"secret", some ⟨.bool false, {}⟩, true, true, false, {}⟩],
      [{ name := "peek", function := peek }, { name := "poke", function := poke }], {}⟩ },
    { node := .class ⟨"D", some "C", [], [], {}⟩ }]

/-- Call a method of a new instance. -/
def askNew (cls method : String) : Expr where
  node := .call ⟨.member ⟨.construct ⟨.name cls, {}⟩ [], {}⟩ method false, {}⟩ [] false

theorem secretive_avoids : (Request.execute secretive).Avoids IsReserved := by
  have read : (Code.expr secret).Avoids IsReserved :=
    .intro nofun (List.forall_mem_singleton.mpr (.intro nofun nofun))
  have peek : (Code.stmt ⟨.return (some secret), {}⟩).Avoids IsReserved :=
    .intro nofun (List.forall_mem_singleton.mpr read)
  have poke : (Code.stmt ⟨.assign secret ⟨.bool true, {}⟩, {}⟩).Avoids IsReserved :=
    .intro nofun (List.forall_mem_cons.mpr
      ⟨read, List.forall_mem_singleton.mpr (.intro nofun nofun)⟩)
  refine List.forall_mem_cons.mpr ⟨?_, List.forall_mem_singleton.mpr ?_⟩
  · refine .intro (by decide) (List.forall_mem_cons.mpr ⟨.intro nofun nofun, ?_⟩)
    refine List.forall_mem_cons.mpr ⟨.intro nofun ?_, List.forall_mem_singleton.mpr ?_⟩
    · exact List.forall_mem_singleton.mpr peek
    · exact .intro nofun (List.forall_mem_singleton.mpr poke)
  · exact .intro (by decide) nofun

theorem statics_grantedByLink_secretive :
    let machine := ((Request.execute secretive).run (.ofFuel 9)).leaves (.new {} none)
    machine.GrantsStatics ⟨0⟩ ∧
      ((Evaluator.ofFuel 9).eval (askNew "C" "peek") machine.globals).succeeds machine = true ∧
      ((Evaluator.ofFuel 9).eval (askNew "C" "poke") machine.globals).succeeds machine = true := by
  intro machine
  have avoids : machine.Avoids IsReserved :=
    AvoidingSession.avoids (.asked .opened 9 (.execute secretive) trivial secretive_avoids)
  have held : machine.heap.Holds (.class ⟨0⟩) := show 0 < machine.heap.classes.size by
    decide +kernel
  refine ⟨statics_grantedByLink avoids held, ?_, ?_⟩
  all_goals decide +kernel

/-- The methods are refused the secret when they run for an instance of the class that has
inherited them. -/
theorem statics_refusedToHeir :
    let machine := ((Request.execute secretive).run (.ofFuel 9)).leaves (.new {} none)
    (machine.heap.class ⟨1⟩).superclass = some ⟨0⟩ ∧
      ((Evaluator.ofFuel 9).eval (askNew "D" "peek") machine.globals).fault? machine =
        some ⟨.privateRead "secret", {}⟩ ∧
      ((Evaluator.ofFuel 9).eval (askNew "D" "poke") machine.globals).fault? machine =
        some ⟨.guardedWrite .private "secret", {}⟩ := by
  decide +kernel

end Hati
