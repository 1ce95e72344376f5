import Hati.Proofs.MethodLookup
import Hati.Proofs.OwnCode

namespace Hati

/-!
# Calls of inherited methods

`super.name(args)` climbs from the class that the code belongs to, not from the class of
the receiver.  The code finds its class under a hidden name, in the scope that was made
when the method became a function.  A program that leaves the hidden name alone cannot
lose it: closures and blocks are evaluated inside that scope, and whatever is called in
between leaves the scope as it is.

So the own code of such a function is evaluated as if each `super.name(args)` in it said
from which class to climb.
-/

/-! ## Climbing -/

/-- From each of its stations, a walk goes on as a walk from there. -/
theorem Walk.suffix {ι : Type} {next : ι → Option ι} {there : ι} {beyond : List ι} :
    ∀ {below : List ι} {here : ι}, Walk next here (below ++ there :: beyond) →
      Walk next there (there :: beyond)
  | [], _, walked => by
      cases walked with
      | last ends => exact .last ends
      | step leads further => exact .step leads further
  | _ :: below, _, walked => by
      rw [List.cons_append] at walked
      generalize rest : below ++ there :: beyond = further at walked
      cases walked with
      | last => simp at rest
      | step _ walked => exact Walk.suffix (rest ▸ walked)

namespace Heap

variable {base heap after : Heap} {cls owner : ClassRef} {name : String} {method : MethodDecl}

/-- The nearest plain method of the name above a class, with the class that declares it. -/
def methodAbove? (heap : Heap) (cls : ClassRef) (name : String) : Option (ClassRef × MethodDecl) :=
  (heap.lineage cls).tail.findSome? fun owner =>
    ((heap.class owner).decl.method? name false).map (owner, ·)

/-- The method is a plain one of the nearest strict ancestor to declare the name. -/
structure IsNearestAbove (heap : Heap) (cls : ClassRef) (name : String) (owner : ClassRef)
    (method : MethodDecl) : Prop where
  declares : (heap.class owner).decl.method? name false = some method
  nearest : ∃ between beyond, heap.lineage cls = cls :: (between ++ owner :: beyond) ∧
    ∀ nearer ∈ between, (heap.class nearer).decl.method? name false = none

theorem lineage_eq_cons (heap : Heap) (cls : ClassRef) :
    heap.lineage cls = cls :: (heap.lineage cls).tail :=
  rfl

theorem isNearestAbove (found : heap.methodAbove? cls name = some (owner, method)) :
    heap.IsNearestAbove cls name owner method := by
  obtain ⟨between, declaring, beyond, split, declares, silent⟩ :=
    List.findSome?_eq_some_iff.mp found
  obtain ⟨declared, isMethod, same⟩ := Option.map_eq_some_iff.mp declares
  cases same
  refine ⟨isMethod, between, beyond, ?_, fun nearer member => ?_⟩
  · rw [lineage_eq_cons, split]
  · exact Option.map_eq_none_iff.mp (silent nearer member)

/-- Above a class stand its parent and all that stands above the parent. -/
theorem WellFormed.tail_lineage (formed : heap.WellFormed) (held : heap.Holds (.class cls))
    {parent : ClassRef} (above : (heap.class cls).superclass = some parent) :
    (heap.lineage cls).tail = heap.lineage parent := by
  have walked := formed.terminates.lineage cls held
  rw [lineage_eq_cons] at walked
  generalize (heap.lineage cls).tail = rest at walked
  cases walked with
  | last ends => cases above.symm.trans ends
  | step leads further =>
      cases above.symm.trans leads
      exact further.unique (formed.terminates.lineage parent (formed.superclass held above))

theorem Grows.lineage (formed : base.WellFormed) (grown : base.Grows heap)
    (held : base.Holds (.class cls)) : heap.lineage cls = base.lineage cls :=
  grown.ancestorsFrom formed _ held

/-- Searching above a class is searching from its parent on. -/
theorem Grows.methodAbove?_eq (formed : base.WellFormed) (grown : base.Grows heap)
    (held : base.Holds (.class cls)) {parent : ClassRef}
    (above : (heap.class cls).superclass = some parent) (name : String) :
    heap.methodAbove? cls name = heap.findMethod? parent name := by
  rw [grown.declared cls held] at above
  have parentHeld := formed.superclass held above
  rw [methodAbove?, grown.lineage formed held, formed.tail_lineage held above,
    Heap.findMethod?, grown.lineage formed parentHeld]

end Heap

namespace Evaluator

variable {ev : Evaluator} {cls : ClassRef} {name : String} {args : List Expr} {scope : FrameRef}
  {span : Span} {here : Machine}

/-- Call the nearest method of the name above the class, for the receiver of the scope. -/
def climb (ev : Evaluator) (cls : ClassRef) (name : String) (args : List Expr) (scope : FrameRef)
    (span : Span) : Run Value := do
  let _ ← Run.parentOf cls span
  ev.climbsTo cls (← Run.read fun heap => heap.methodAbove? cls name) name args scope span

/-- What a climb comes to.  It fails from a base class and where no ancestor has a method of
the name, and it ends where there is no receiver or an argument comes to no value.
Otherwise it is the call of the nearest method above the class, as a function that was made
for the receiver. -/
inductive Climbed (ev : Evaluator) (cls : ClassRef) (name : String) (args : List Expr)
    (scope : FrameRef) (span : Span) (here : Machine) :
    EStateM.Result Halt Machine Value → Prop where
  | base (none : (here.heap.class cls).superclass = none) :
    Climbed ev cls name args scope span here
      (.error (.fault ⟨.noSuperclass (here.heap.class cls).name, span⟩) here)
  | missing (none : here.heap.methodAbove? cls name = none) :
    Climbed ev cls name args scope span here
      (.error (.fault ⟨.noSuperMethod (here.heap.class cls).name name, span⟩) here)
  | unreceived (none : here.heap.lookup? scope receiverName = none) :
    Climbed ev cls name args scope span here (.error (.fault ⟨.noReceiver, span⟩) here)
  | interrupted {halt : Halt} {after : Machine}
    (ended : ev.arguments scope args here = .error halt after) :
    Climbed ev cls name args scope span here (.error halt after)
  | calls {owner : ClassRef} {method : MethodDecl} {binding : Binding} {values : List Value}
    {function : Value} {middle ready : Machine}
    (nearest : here.heap.IsNearestAbove cls name owner method)
    (receiver : here.heap.lookup? scope receiverName = some binding)
    (arguments : ev.arguments scope args here = .ok values middle)
    (made : Run.materialize owner method binding.value middle = .ok function ready) :
    Climbed ev cls name args scope span here
      (ev.call function (some binding.value) values scope span ready)

/-- A climb that has found a method calls it, unless the receiver or an argument is missing. -/
theorem climbed_of_found {chosen : ClassRef × MethodDecl}
    (found : here.heap.methodAbove? cls name = some chosen) :
    ev.Climbed cls name args scope span here
      (ev.climbsTo cls (some chosen) name args scope span here) := by
  obtain ⟨owner, method⟩ := chosen
  have asked := Run.receiver_apply scope span here
  unfold climbsTo
  dsimp only
  cases bound : here.heap.lookup? scope receiverName with
  | none =>
      rw [bound] at asked
      rw [Run.bind_of_error asked]
      exact .unreceived bound
  | some binding =>
      rw [bound] at asked
      rw [Run.bind_of_ok asked]
      cases ended : ev.arguments scope args here with
      | error halt after =>
          rw [Run.bind_of_error ended]
          exact .interrupted ended
      | ok values middle =>
          rw [Run.bind_of_ok ended]
          exact .calls (Heap.isNearestAbove found) bound ended rfl

/-- Every climb comes to one of these ends. -/
theorem climbed (ev : Evaluator) (cls : ClassRef) (name : String) (args : List Expr)
    (scope : FrameRef) (span : Span) (here : Machine) :
    ev.Climbed cls name args scope span here (ev.climb cls name args scope span here) := by
  have asked := Run.parentOf_apply cls span here
  unfold climb
  cases above : (here.heap.class cls).superclass with
  | none =>
      rw [above] at asked
      rw [Run.bind_of_error asked]
      exact .base above
  | some parent =>
      rw [above] at asked
      rw [Run.bind_of_ok asked]
      show Climbed ev cls name args scope span here
        (ev.climbsTo cls (here.heap.methodAbove? cls name) name args scope span here)
      cases found : here.heap.methodAbove? cls name with
      | none => exact .missing found
      | some chosen => exact climbed_of_found found

/-- In a scope that knows the class of its code, a call of an inherited method climbs
from that class. -/
theorem climb_eq_superMethod {base : Heap} (formed : base.WellFormed)
    (grown : base.Grows here.heap) (held : base.Holds (.class cls)) {isConstant : Bool}
    (owned : here.heap.lookup? scope ownerName = some ⟨.class cls, isConstant⟩) :
    ev.climb cls name args scope span here = ev.superMethod name args scope span here := by
  have asked := Run.parentOf_apply cls span here
  cases above : (here.heap.class cls).superclass with
  | none =>
      rw [above] at asked
      rw [climb, Run.bind_of_error asked, superMethod, Run.bind_of_ok (owner?_of_class owned)]
      exact (Run.bind_of_error asked).symm
  | some parent =>
      rw [above] at asked
      rw [superMethod_eq_climbsTo owned above, climb, Run.bind_of_ok asked,
        ← grown.methodAbove?_eq formed held above]
      rfl

/-- In the code of a class, calls of inherited methods climb from it. -/
def climbing (cls : ClassRef) (ev : Evaluator) (expr : Expr) (scope : FrameRef) :
    Option (Run Value) :=
  match expr with
  | ⟨.superMethod name args, span⟩ => some (ev.climb cls name args scope span)
  | _ => none

end Evaluator

/-! ## The code of a class -/

/-- The scopes of the code of a class: the nearest class that they know is this one. -/
def Hosting.ofClass (base : Heap) (cls : ClassRef) : Hosting where
  hidden name := name = ownerName
  owner := rfl
  hosts machine scope :=
    base.Grows machine.heap ∧ machine.heap.Finds ownerName { value := .class cls } scope
  stays onward hosted :=
    ⟨hosted.1.trans onward.preserves.grows, hosted.2.mono onward.preserves rfl⟩
  opens hosted :=
    ⟨hosted.1.trans (Heap.grows_allocFrame _ _), hosted.2.inner rfl rfl⟩

theorem Hosting.ofClass_justifies {base : Heap} {cls : ClassRef} (formed : base.WellFormed)
    (held : base.Holds (.class cls)) :
    (Hosting.ofClass base cls).Justifies (Evaluator.climbing cls) := by
  intro ev other world expr scope run accords avoids hosted isRule
  obtain ⟨node, span⟩ := expr
  cases node with
  | superMethod name args =>
      cases isRule
      have argsAvoid : ∀ arg ∈ args, (Code.expr arg).Avoids (· = ownerName) :=
        fun arg member => avoids.part (List.mem_map_of_mem member)
      refine (accords.superMethod trivial (.inl hosted) argsAvoid).forget.congr
        fun machine onward => ?_
      have ⟨grown, owned⟩ := (Hosting.ofClass base cls).stays onward.2 hosted
      exact Evaluator.climb_eq_superMethod formed grown held owned.lookup?_eq
  | _ => cases isRule

namespace Heap

variable {heap after : Heap} {cls : ClassRef} {ref : FunctionRef}

/-- The code of the function is code of the class: the function is a closure, and the
nearest class that its scope knows is this one. -/
def BelongsTo (heap : Heap) (ref : FunctionRef) (cls : ClassRef) : Prop :=
  ∃ decl closure, (heap.function ref).body = .closure decl closure ∧
    heap.Finds ownerName { value := .class cls } closure

theorem BelongsTo.held (belongs : heap.BelongsTo ref cls) : heap.Holds (.function ref) := by
  obtain ⟨decl, closure, body, -⟩ := belongs
  by_contra outside
  have missing : heap.functions[ref.index]? = none :=
    Array.getElem?_eq_none (Nat.le_of_not_lt outside)
  rw [Heap.function, Array.getD_eq_getD_getElem?, missing] at body
  cases body

/-- It is so for good. -/
theorem BelongsTo.mono (belongs : heap.BelongsTo ref cls)
    (preserves : heap.Preserves (· = ownerName) after) : after.BelongsTo ref cls := by
  have held := belongs.held
  obtain ⟨decl, closure, body, owned⟩ := belongs
  refine ⟨decl, closure, ?_, owned.mono preserves rfl⟩
  rw [preserves.functions ref held, body]

/-- The functions that are written in code of a class are code of the class. -/
theorem belongsTo_allocFunction {scope : FrameRef}
    (owned : heap.Finds ownerName { value := .class cls } scope) (decl : FunctionDecl) :
    (heap.allocFunction (.ofDecl decl scope)).2.BelongsTo
      (heap.allocFunction (.ofDecl decl scope)).1 cls := by
  refine ⟨decl, scope, ?_, owned.mono (preserves_allocFunction heap _) rfl⟩
  rw [function_allocFunction_self]
  rfl

/-! ## Climbs after one another -/

/-- Climbs after one another, each from the class that the one before has come to.  The
heap may grow in between. -/
inductive Ascends : Heap → ClassRef → List ClassRef → Prop where
  | rests (heap : Heap) (cls : ClassRef) : Ascends heap cls []
  | climbs {heap here : Heap} {cls owner : ClassRef} {name : String} {method : MethodDecl}
    {visited : List ClassRef} (grown : heap.Grows here)
    (nearest : here.IsNearestAbove cls name owner method) (further : Ascends here owner visited) :
    Ascends heap cls (owner :: visited)

/-- From a class that it comes to, a lineage goes on as the lineage of that class. -/
theorem WellFormed.lineage_suffix (formed : heap.WellFormed) (held : heap.Holds (.class cls))
    {below beyond : List ClassRef} {owner : ClassRef}
    (split : heap.lineage cls = below ++ owner :: beyond) :
    heap.lineage owner = owner :: beyond := by
  have walked := formed.terminates.lineage cls held
  rw [split] at walked
  have member : owner ∈ heap.lineage cls := by
    rw [split]
    exact List.mem_append_right _ List.mem_cons_self
  have ownerHeld := formed.mem_ancestorsFrom held member
  exact (formed.terminates.lineage owner ownerHeld).unique walked.suffix

/-- Ancestors are older, so a lineage comes to no class twice. -/
theorem WellFormed.lineage_nodup (formed : heap.WellFormed) (held : heap.Holds (.class cls)) :
    (heap.lineage cls).Nodup := by
  have descending : ∀ {cls : ClassRef} {walk : List ClassRef}, Walk heap.superclass? cls walk →
      heap.Holds (.class cls) →
        (∀ owner ∈ walk, owner.index ≤ cls.index) ∧ walk.Nodup := by
    intro cls walk walked
    induction walked with
    | last ends => exact fun _ => ⟨by simp, by simp⟩
    | @step cls parent walk leads further ih =>
        intro held
        have older := (formed.classes cls held).superclass parent leads
        obtain ⟨below, distinct⟩ := ih (formed.superclass held leads)
        have above : ∀ owner ∈ walk, owner.index < cls.index := fun owner member =>
          Nat.lt_of_le_of_lt (below owner member) older
        refine ⟨fun owner member => ?_, List.nodup_cons.mpr ⟨fun member => ?_, distinct⟩⟩
        · rcases List.mem_cons.mp member with rfl | member
          · exact Nat.le_refl _
          · exact Nat.le_of_lt (above owner member)
        · exact Nat.lt_irrefl _ (above cls member)
  exact (descending (formed.terminates.lineage cls held) held).2

/-- Climbs that follow one another visit classes in the order of the lineage. -/
theorem Ascends.sublist {base : Heap} {visited : List ClassRef} (formed : base.WellFormed)
    (ascends : heap.Ascends cls visited) (grown : base.Grows heap)
    (held : base.Holds (.class cls)) :
    (cls :: visited).Sublist (base.lineage cls) := by
  induction ascends with
  | rests heap cls => exact (List.nil_sublist _).cons_cons cls
  | @climbs heap here cls owner name method visited further nearest _ ih =>
      have grown := grown.trans further
      obtain ⟨between, beyond, split, -⟩ := nearest.nearest
      rw [grown.lineage formed held] at split
      have member : owner ∈ base.lineage cls := by
        rw [split]
        exact List.mem_cons_of_mem _ (List.mem_append_right _ List.mem_cons_self)
      have ownerHeld := formed.mem_ancestorsFrom held member
      have above := ih grown ownerHeld
      have suffix : base.lineage owner = owner :: beyond :=
        formed.lineage_suffix held (split.trans (List.cons_append ..).symm)
      rw [suffix] at above
      rw [split]
      exact (above.trans (List.sublist_append_right between _)).cons_cons cls

end Heap

/-! ## All states -/

/-- Climbing from a class, in a state of the interpreter. -/
structure Machine.ClimbsFrom (machine : Machine) (cls : ClassRef) : Prop where
  /-- A declared method, of whatever kind, becomes a function with code of the class.  When
  it is called for its receiver, the scope of the call knows the receiver and the class. -/
  methods : ∀ (method : MethodDecl) (receiver value : Value) (after : Machine),
    Run.materialize cls method receiver machine = .ok value after →
    ∃ ref closure, value = .function ref ∧
      after.heap.function ref = .ofDecl method.function closure ∧ after.heap.BelongsTo ref cls ∧
      ∀ (scope : FrameRef) (entered : Machine),
        Run.enterCall closure (some receiver) after = .ok scope entered →
        entered.heap.Knows scope receiver cls
  /-- A function that is written in code of the class is code of the class. -/
  functions : ∀ (decl : FunctionDecl) (scope : FrameRef) (value : Value) (after : Machine),
    machine.heap.HasFrame scope →
    machine.heap.lookup? scope ownerName = some { value := .class cls } →
    Run.newFunction (.ofDecl decl scope) machine = .ok value after →
    ∃ ref, value = .function ref ∧ after.heap.BelongsTo ref cls
  /-- It stays so for the whole session. -/
  lasts : ∀ (ref : FunctionRef) (after : Machine), machine.heap.BelongsTo ref cls →
    AvoidingSession (· = ownerName) machine after → after.heap.BelongsTo ref cls
  /-- A call of such a function evaluates `super.name(args)` in the code of the function by
  climbing from the class. -/
  calls : ∀ ref, machine.heap.BelongsTo ref cls →
    ∃ decl closure, (machine.heap.function ref).body = .closure decl closure ∧
      ∀ (fuel : Nat) (receiver : Option Value) (args : List Value) (scope : FrameRef) (span : Span),
        (Evaluator.ofFuel (fuel + 1)).call (.function ref) receiver args scope span machine =
          Run.deeper span ((Evaluator.ownCode (Evaluator.climbing cls) fuel).activate
            (machine.heap.function ref).name decl closure receiver args span) machine
  /-- A climb from the class comes to the nearest method above it. -/
  climbs : ∀ (ev : Evaluator) (name : String) (args : List Expr) (scope : FrameRef) (span : Span),
    ev.Climbed cls name args scope span machine (ev.climb cls name args scope span machine)
  /-- Climbs from the class that follow one another go up its lineage, past each class at
  most once, so there are fewer of them than there are classes. -/
  ascends : ∀ visited, machine.heap.Ascends cls visited →
    (cls :: visited).Sublist (machine.heap.lineage cls) ∧ (machine.heap.lineage cls).Nodup ∧
      visited.length < (machine.heap.lineage cls).length

/-- In each state that a program comes to which leaves the hidden name of owners alone,
and for each class. -/
theorem superMethod_climbs {machine : Machine} (avoids : machine.Avoids (· = ownerName))
    {cls : ClassRef} (held : machine.heap.Holds (.class cls)) : machine.ClimbsFrom cls where
  methods method receiver value after made := by
    obtain ⟨ref, closure, rfl, function, frame⟩ := (Run.materialize_ok made).1
    have knows := Heap.knows_of_receiverFrame frame
    refine ⟨ref, closure, rfl, function, ?_, fun scope entered enters => ?_⟩
    · exact ⟨method.function, closure, congrArg Function.body function, knows.owner⟩
    · rw [Run.enterCall_apply] at enters
      cases enters
      exact knows.call
  functions decl scope value after inside found made := by
    cases made
    have owned := Heap.Finds.ofLookup? avoids.formed.heap inside found
    exact ⟨_, rfl, Heap.belongsTo_allocFunction owned decl⟩
  lasts ref after belongs session :=
    belongs.mono (session.continues avoids.stores).preserves
  calls ref belongs := by
    obtain ⟨decl, closure, body, owned⟩ := belongs
    refine ⟨decl, closure, body, fun fuel receiver args scope span => ?_⟩
    have justified := Hosting.ofClass_justifies avoids.formed.heap held
    refine Hosting.call_eq_ownCode justified avoids.stores (avoids.draws.function body) body ?_
      fuel args scope span
    intro here onward
    have grown := onward.preserves.grows.trans
      (here.heap.grows_allocFrame (.ofCall closure receiver))
    refine ⟨grown, (owned.mono onward.preserves rfl).inner rfl ?_⟩
    cases receiver <;> rfl
  climbs ev name args scope span := ev.climbed cls name args scope span machine
  ascends visited ascends := by
    have sublist := ascends.sublist avoids.formed.heap (.refl _) held
    exact ⟨sublist, avoids.formed.heap.lineage_nodup held, sublist.length_le⟩

/-- A class with a method that calls the inherited method of the same name. -/
def climber (name parent : String) : Stmt where
  node := .class ⟨name, some parent, [], [
    { name := "m"
      function := ⟨"m", [], [⟨.return (some ⟨.superMethod "m" [], {}⟩), {}⟩], {}⟩ }], {}⟩

/-- Three classes that inherit from one another and have a method of the same name; that
of the first one has nothing in it. -/
def threeLevels : List Stmt :=
  [{ node := .class ⟨"A", none, [], [Evaluator.emptyMethod "m" {}], {}⟩ },
    climber "B" "A", climber "C" "B"]

theorem climber_avoids {hidden : String → Prop} {name : String} (visible : ¬ hidden name)
    (parent : String) : (Code.stmt (climber name parent)).Avoids hidden := by
  refine .intro (fun own member => ?_) fun part inside => ?_
  · rw [List.mem_singleton.mp member]
    exact visible
  · rw [List.mem_singleton.mp inside]
    refine .intro nofun fun part inside => ?_
    rw [List.mem_singleton.mp inside]
    refine .intro nofun fun part inside => ?_
    rw [List.mem_singleton.mp inside]
    exact .intro nofun nofun

theorem threeLevels_avoids : (Request.execute threeLevels).Avoids (· = ownerName) := by
  intro stmt member
  rcases List.mem_cons.mp member with rfl | member
  · refine .intro (by show ∀ name ∈ ["A"], name ≠ ownerName; decide) fun part inside => ?_
    rw [List.mem_singleton.mp inside]
    exact .intro nofun nofun
  rcases List.mem_cons.mp member with rfl | member
  · exact climber_avoids (by decide) "A"
  · rw [List.mem_singleton.mp member]
    exact climber_avoids (by decide) "B"

/-- From the lowest class the climb goes to the middle one, and from there to the highest. -/
theorem superMethod_climbs_threeLevels :
    let machine := ((Request.execute threeLevels).run (.ofFuel 9)).leaves (.new {} none)
    machine.ClimbsFrom ⟨2⟩ ∧ machine.ClimbsFrom ⟨1⟩ ∧
      (machine.heap.methodAbove? ⟨2⟩ "m").map Prod.fst = some ⟨1⟩ ∧
      (machine.heap.methodAbove? ⟨1⟩ "m").map Prod.fst = some ⟨0⟩ ∧
      (machine.heap.methodAbove? ⟨0⟩ "m").map Prod.fst = none := by
  intro machine
  have avoids : machine.Avoids (· = ownerName) :=
    AvoidingSession.avoids (.asked .opened 9 (.execute threeLevels) trivial threeLevels_avoids)
  have declared : machine.heap.classes.size = 3 := by decide +kernel
  refine ⟨superMethod_climbs avoids ?_, superMethod_climbs avoids ?_, ?_, ?_, ?_⟩
  · show 2 < machine.heap.classes.size
    rw [declared]
    decide
  · show 1 < machine.heap.classes.size
    rw [declared]
    decide
  all_goals decide +kernel

end Hati
