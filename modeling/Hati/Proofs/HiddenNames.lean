import Hati.Proofs.Blame
import Hati.Proofs.Law
import Hati.Proofs.Sessions

namespace Hati

/-!
# Hidden names

Scopes hold the receiver of the running code and the class that the code belongs to
under names that are no identifiers.  The interpreter binds them in frames that it has
just made, and the program text has no way to write them.  Trees do have a way, so what
is said here is said of programs that leave a set of names alone: none of their
declarations, parameters and assignments goes to a name of the set.

Then a frame keeps what it holds under such a name for good, and since it also keeps
its parent, a scope finds the same binding under the name whatever has been evaluated
in the meantime.
-/

/-! ## Programs that leave names alone -/

namespace Node

/-- Nothing in the node binds a name of the set or assigns to one. -/
def Avoids (hidden : String → Prop) (node : Node) : Prop :=
  ∀ part, node.Contains part → ∀ name ∈ part.ownNames, ¬ hidden name

variable {hidden : String → Prop} {node : Node}

theorem Avoids.own (avoids : node.Avoids hidden) : ∀ name ∈ node.ownNames, ¬ hidden name :=
  avoids node .refl

theorem Avoids.part (avoids : node.Avoids hidden) {part : Node} (inside : part ∈ node.parts) :
    part.Avoids hidden :=
  fun inner contains => avoids inner (.head inside contains)

theorem Avoids.intro (own : ∀ name ∈ node.ownNames, ¬ hidden name)
    (parts : ∀ part ∈ node.parts, part.Avoids hidden) : node.Avoids hidden := by
  intro inner contains
  rcases Relation.ReflTransGen.cases_head contains with rfl | ⟨part, direct, rest⟩
  · exact own
  · exact parts part direct inner rest

end Node

/-- The code avoids the names, as a node. -/
def Code.Avoids (hidden : String → Prop) (code : Code) : Prop :=
  (Node.code code).Avoids hidden

theorem Code.Avoids.part {hidden : String → Prop} {whole part : Code}
    (avoids : whole.Avoids hidden) (inside : part ∈ whole.parts) : part.Avoids hidden :=
  fun inner contains => avoids inner ((Node.contains_of_mem_parts inside).trans contains)

/-- A node that avoids the names consists of code that does. -/
theorem Node.Avoids.consists {hidden : String → Prop} {node : Node} (avoids : node.Avoids hidden) :
    node.Consists (Code.Avoids hidden) := by
  cases node with
  | code whole => exact avoids
  | function decl => exact fun part member => avoids.part (List.mem_map_of_mem member)

namespace Blame

/-- All code avoids the names; what fails and where is left open. -/
def avoiding (hidden : String → Prop) : Blame where
  known := Node.Avoids hidden
  place _ := True
  admits _ := True
  known_parts _ _ known inside := known.part inside
  known_place _ _ := trivial
  admits_placed _ _ _ _ := trivial
  admits_stray _ _ _ _ _ := trivial
  admits_orAt _ _ _ _ := trivial

end Blame

namespace Request

/-- The code that is handed in avoids the names. -/
def Avoids (hidden : String → Prop) : Request → Prop
  | execute program => ∀ stmt ∈ program, (Code.stmt stmt).Avoids hidden
  | eval expr _ => (Code.expr expr).Avoids hidden
  | exec stmt _ => (Code.stmt stmt).Avoids hidden
  | call .. | construct .. | delete .. | drain .. => True

theorem Avoids.known {hidden : String → Prop} {request : Request}
    (avoids : request.Avoids hidden) : ∀ code ∈ request.code, code.Avoids hidden := by
  intro code member
  cases request with
  | execute program =>
      rcases List.mem_map.mp member with ⟨stmt, inProgram, rfl⟩
      exact avoids stmt inProgram
  | eval expr scope => exact List.mem_singleton.mp member ▸ avoids
  | exec stmt scope => exact List.mem_singleton.mp member ▸ avoids
  | _ => cases member

theorem limits_avoiding {hidden : String → Prop} {request : Request}
    (avoids : request.Avoids hidden) (fuel : Nat) :
    (Blame.avoiding hidden).Limits (request.run (.ofFuel fuel)) :=
  Blame.limits_request fuel avoids.known (fun _ => trivial) fun _ _ _ _ _ _ => trivial

end Request

/-- Requests after one another, each with some fuel and however they end, in which only
code that avoids the names is handed in. -/
inductive AvoidingSession (hidden : String → Prop) (start : Machine) : Machine → Prop
  | opened : AvoidingSession hidden start start
  | asked {machine : Machine} (before : AvoidingSession hidden start machine) (fuel : Nat)
    (request : Request) (held : request.IsHeld machine.heap) (avoids : request.Avoids hidden) :
    AvoidingSession hidden start ((request.run (.ofFuel fuel)).leaves machine)

/-- The heap is well formed, and all its functions and classes avoid the names. -/
structure Machine.Avoids (hidden : String → Prop) (machine : Machine) : Prop where
  formed : machine.WellFormed
  draws : machine.heap.Draws (Node.Avoids hidden)

theorem Machine.Avoids.stores {hidden : String → Prop} {machine : Machine}
    (avoids : machine.Avoids hidden) : machine.heap.Stores (Code.Avoids hidden) :=
  avoids.draws.stores fun _ known => known.consists

namespace AvoidingSession

variable {hidden : String → Prop} {settings : Settings} {outputLimit : Option Nat}
  {threads : ThreadPolicy}
  {start machine : Machine}

theorem session (avoiding : AvoidingSession hidden start machine) : Session start machine := by
  induction avoiding with
  | opened => exact .opened
  | asked before fuel request held avoids ih => exact .asked ih fuel request held

theorem accepts (avoiding : AvoidingSession hidden (.new settings outputLimit threads) machine) :
    (Blame.avoiding hidden).Accepts machine := by
  induction avoiding with
  | opened => exact Blame.accepts_new (.avoiding hidden) settings outputLimit threads
  | asked before fuel request held avoids ih => exact (request.limits_avoiding avoids fuel _ ih).1

/-- A session that is only handed such code keeps to it. -/
theorem avoids (avoiding : AvoidingSession hidden (.new settings outputLimit threads) machine) :
    machine.Avoids hidden where
  formed :=
    have opened := Machine.new_wellFormed settings outputLimit threads
    (avoiding.session.reaches opened).wellFormed opened
  draws := avoiding.accepts.draws

end AvoidingSession

/-! ## What stays -/

/-- Cells were only added; functions and classes stayed as they were, and frames kept
their parents and what they hold under the names of the set. -/
structure Heap.Preserves (hidden : String → Prop) (heap after : Heap) : Prop where
  grows : heap.Grows after
  functions : ∀ ref, heap.Holds (.function ref) → after.function ref = heap.function ref
  bindings : ∀ ref name, heap.HasFrame ref → hidden name →
    after.localBinding? ref name = heap.localBinding? ref name

namespace Heap

variable {hidden : String → Prop} {heap middle after : Heap} {permit : Permit}

theorem Preserves.refl (heap : Heap) : heap.Preserves hidden heap :=
  ⟨.refl heap, fun _ _ => rfl, fun _ _ _ _ => rfl⟩

theorem Preserves.trans (first : heap.Preserves hidden middle)
    (second : middle.Preserves hidden after) : heap.Preserves hidden after where
  grows := first.grows.trans second.grows
  functions ref held :=
    (second.functions ref (held.mono first.grows)).trans (first.functions ref held)
  bindings ref name inside isHidden :=
    (second.bindings ref name (inside.mono first.grows) isHidden).trans
      (first.bindings ref name inside isHidden)

theorem Effect.function_eq (effect : Effect permit heap after) {ref : FunctionRef}
    (held : heap.Holds (.function ref)) : after.function ref = heap.function ref := by
  have pushed : ∀ function, (heap.allocFunction function).2.function ref = heap.function ref :=
    fun function => (function_allocFunction heap function ref).trans (if_neg (Nat.ne_of_lt held))
  cases effect with
  | allocBuiltin builtin => exact pushed _
  | allocClosure decl scope stored => exact pushed _
  | _ => rfl

theorem Effect.class_eq (effect : Effect permit heap after) {ref : ClassRef}
    (held : heap.Holds (.class ref)) : after.class ref = heap.class ref := by
  cases effect with
  | allocClass cls stored =>
      exact (class_allocClass heap cls ref).trans (if_neg (Nat.ne_of_lt held))
  | _ => rfl

theorem Effect.grows (effect : Effect permit heap after) : heap.Grows after where
  frames := effect.size_frames_le
  lists := effect.size_lists_le
  objects := effect.size_objects_le
  functions := by cases effect <;> simp [Heap.allocFrame, Heap.allocList, Heap.allocObject,
    Heap.allocFunction, Heap.allocClass, Heap.bind, Heap.modifyList, Heap.modifyObject]
  classes := by cases effect <;> simp [Heap.allocFrame, Heap.allocList, Heap.allocObject,
    Heap.allocFunction, Heap.allocClass, Heap.bind, Heap.modifyList, Heap.modifyObject]
  parents _ inside := effect.parent_frame inside
  declared _ held := effect.class_eq held

/-- An effect that declares hidden names in none but new frames, and assigns to none,
leaves what the old frames hold under them. -/
theorem Effect.localBinding?_eq (effect : Effect permit heap after) {ref : FrameRef} {name : String}
    (inside : heap.HasFrame ref) (undeclared : ¬ permit.declares ref name)
    (unassigned : ¬ permit.assigns name) :
    after.localBinding? ref name = heap.localBinding? ref name := by
  cases effect with
  | allocFrame parent => rw [localBinding?, localBinding?, frame_of_frames_push rfl inside]
  | declare frame other binding permitted =>
      rw [localBinding?_bind inside, if_neg]
      rintro ⟨rfl, rfl⟩
      exact undeclared permitted
  | assign frame other value old bound changeable permitted =>
      rw [localBinding?_bind inside, if_neg]
      rintro ⟨-, rfl⟩
      exact unassigned permitted
  | _ => rfl

/-- Evaluation that obeys such a permit preserves the heap that it started from. -/
theorem Path.preserves (path : Path permit heap after)
    (declares : ∀ frame name, hidden name → permit.declares frame name →
      heap.frames.size ≤ frame.index)
    (assigns : ∀ name, hidden name → ¬ permit.assigns name) : heap.Preserves hidden after := by
  induction path with
  | refl => exact .refl heap
  | @tail middle after path effect ih =>
      refine ⟨ih.grows.trans effect.grows, fun ref held => ?_, fun ref name inside isHidden => ?_⟩
      · exact (effect.function_eq (held.mono ih.grows)).trans (ih.functions ref held)
      · have undeclared : ¬ permit.declares ref name := fun permitted =>
          Nat.lt_irrefl _ (Nat.lt_of_lt_of_le inside (declares ref name isHidden permitted))
        have kept := effect.localBinding?_eq (inside.mono ih.grows) undeclared
          (assigns name isHidden)
        exact kept.trans (ih.bindings ref name inside isHidden)

theorem grows_allocFrame (heap : Heap) (frame : Frame) : heap.Grows (heap.allocFrame frame).2 where
  frames := by simp [allocFrame]
  parents _ inside := congrArg Frame.parent (frame_of_frames_push rfl inside)

theorem preserves_allocFrame (heap : Heap) (frame : Frame) :
    heap.Preserves hidden (heap.allocFrame frame).2 where
  grows := heap.grows_allocFrame frame
  functions _ _ := rfl
  bindings ref name inside _ := by
    rw [localBinding?, localBinding?, frame_of_frames_push rfl inside]

theorem preserves_allocFunction (heap : Heap) (function : Function) :
    heap.Preserves hidden (heap.allocFunction function).2 where
  grows := { functions := by simp [allocFunction] }
  functions ref held :=
    (function_allocFunction heap function ref).trans (if_neg (Nat.ne_of_lt held))
  bindings _ _ _ _ := rfl

end Heap

/-! ## Evaluation -/

namespace Law

variable {hidden : String → Prop} {heap : Heap} {stored : heap.Stores (Code.Avoids hidden)}

/-- Hidden names are declared in new frames only, and never assigned to. -/
def shielding (hidden : String → Prop) (heap : Heap) (stored : heap.Stores (Code.Avoids hidden)) :
    Law where
  permit :=
    { code := Code.Avoids hidden
      declares := fun frame name => hidden name → heap.frames.size ≤ frame.index
      assigns := fun name => ¬ hidden name
      owns := fun _ => True
      clears := True }
  since := heap
  calls _ _ := True
  abandons _ := False
  exhausts := True
  stored := stored
  code_parts _ _ avoids inside := avoids.part inside
  code_assigns _ _ avoids assigned := avoids.own _ (Code.mem_ownNames_of_assigned? assigned)
  declares_fresh _ _ fresh _ := fresh
  owns_fresh _ _ := trivial
  clears_delete _ _ _ _ := trivial
  abandons_orAt _ _ impossible := impossible

theorem shielding_covers (fuel : Nat) :
    (shielding hidden heap stored).logic.Covers (Code.Avoids hidden) (.ofFuel fuel)
      (.ofFuel fuel) :=
  covers_ofFuel trivial (fun _ _ _ _ => trivial) fuel

theorem shielding_preserves {after : Heap} (passes : (shielding hidden heap stored).Passes after) :
    heap.Preserves hidden after :=
  passes.preserves (fun _ _ isHidden permitted => permitted isHidden)
    fun _ isHidden permitted => permitted isHidden

/-- Such code may be executed in any scope. -/
theorem shielding_admits {stmt : Stmt} (avoids : (Code.stmt stmt).Avoids hidden)
    (machine : Machine) (scope : FrameRef) :
    (shielding hidden heap stored).logic.Admits machine stmt scope := by
  have own := avoids.own
  refine ⟨trivial, ?_⟩
  rcases stmt with ⟨node, span⟩
  cases node with
  | declare target value isConstant =>
      exact fun name bound isHidden => absurd isHidden (own name bound)
  | function decl =>
      exact fun name named isHidden => absurd isHidden (own name (Option.mem_toList.mpr named))
  | «class» decl =>
      exact fun isHidden => absurd isHidden (own decl.name (List.mem_singleton_self _))
  | assign target value =>
      rcases target with ⟨targetNode, targetSpan⟩
      cases targetNode with
      | name name =>
          exact fun _ _ _ isHidden => absurd isHidden (own name (List.mem_singleton_self _))
      | _ => trivial
  | _ => trivial

end Law

/-- The second machine comes later in an evaluation of code that avoids the names. -/
structure Machine.Continues (hidden : String → Prop) (machine after : Machine) : Prop where
  preserves : machine.heap.Preserves hidden after.heap
  constructing : after.constructing = machine.constructing
  stores : after.heap.Stores (Code.Avoids hidden)

namespace Machine.Continues

variable {hidden : String → Prop} {machine middle after : Machine}

theorem refl (stores : machine.heap.Stores (Code.Avoids hidden)) :
    machine.Continues hidden machine :=
  ⟨.refl _, rfl, stores⟩

theorem trans (first : machine.Continues hidden middle) (second : middle.Continues hidden after) :
    machine.Continues hidden after :=
  ⟨first.preserves.trans second.preserves, second.constructing.trans first.constructing,
    second.stores⟩

theorem ofEvolves {stores : machine.heap.Stores (Code.Avoids hidden)}
    (evolves : machine.Evolves (Law.shielding hidden machine.heap stores).permit after) :
    machine.Continues hidden after :=
  ⟨Law.shielding_preserves evolves.path, evolves.constructing, evolves.path.stores stores⟩

/-- However a run ends that the law governs, it leads on. -/
theorem leaves {α : Type} {first second : Run α} {result : Machine → α → Prop}
    {stores : machine.heap.Stores (Code.Avoids hidden)}
    (relates :
      (Law.shielding hidden machine.heap stores).logic.Relates machine first second result) :
    machine.Continues hidden (first.leaves machine) :=
  .ofEvolves (Law.evolves relates ⟨.refl, trivial⟩)

end Machine.Continues

/-! ## Whole sessions -/

/-- However a request ends, and whatever it has evaluated, it leads on. -/
theorem Request.continues {hidden : String → Prop} {request : Request} {machine : Machine}
    (avoids : request.Avoids hidden) (fuel : Nat)
    (stores : machine.heap.Stores (Code.Avoids hidden)) :
    machine.Continues hidden ((request.run (.ofFuel fuel)).leaves machine) := by
  have covers : (Law.shielding hidden machine.heap stores).logic.Covers (Code.Avoids hidden)
      (.ofFuel fuel) (.ofFuel fuel) := Law.shielding_covers fuel
  have granted : (Law.shielding hidden machine.heap stores).logic.Grants machine request := by
    cases request with
    | execute program =>
        exact ⟨avoids, fun later _ stmt member =>
          Law.shielding_admits (avoids stmt member) later later.globals, fun _ _ _ _ => nofun⟩
    | eval expr scope => exact ⟨avoids, trivial⟩
    | exec stmt scope => exact ⟨avoids, Law.shielding_admits avoids machine scope⟩
    | call callee receiver args scope span =>
        exact ⟨trivial, Law.held, fun _ _ => Law.held, fun _ _ => Law.held⟩
    | construct cls args scope span => exact ⟨trivial, Law.held, fun _ _ => Law.held⟩
    | delete target args scope span => exact ⟨trivial, trivial, Law.held, fun _ _ => Law.held⟩
    | drain rounds executed => exact ⟨trivial, fun _ => trivial, fun _ => id⟩
  exact .leaves (covers.request granted)

/-- Hidden names keep what they hold for a whole session. -/
theorem AvoidingSession.continues {hidden : String → Prop} {start machine : Machine}
    (avoiding : AvoidingSession hidden start machine)
    (stores : start.heap.Stores (Code.Avoids hidden)) : start.Continues hidden machine := by
  induction avoiding with
  | opened => exact .refl stores
  | asked before fuel request held avoids ih =>
      exact ih.trans (request.continues avoids fuel ih.stores)

/-! ## What a scope finds -/

/-- Going outwards from a scope, the first frame to bind the name binds it like this. -/
inductive Heap.Finds (heap : Heap) (name : String) (binding : Binding) : FrameRef → Prop
  | here {ref : FrameRef} (inside : heap.HasFrame ref)
    (bound : heap.localBinding? ref name = some binding) : Finds heap name binding ref
  | outer {ref parent : FrameRef} (inside : heap.HasFrame ref)
    (unbound : heap.localBinding? ref name = none) (around : heap.outer? ref = some parent)
    (older : parent.index < ref.index) (found : Finds heap name binding parent) :
    Finds heap name binding ref

namespace Heap.Finds

variable {hidden : String → Prop} {heap after : Heap} {name : String} {binding : Binding}
  {scope : FrameRef}

theorem inside (found : heap.Finds name binding scope) : heap.HasFrame scope := by
  cases found <;> assumption

theorem ofLookup? (formed : heap.WellFormed) (inside : heap.HasFrame scope)
    (lookup : heap.lookup? scope name = some binding) : heap.Finds name binding scope := by
  have searched := formed.terminates.lookup scope name inside
  rw [lookup] at searched
  clear lookup
  generalize result : some binding = answer at searched
  induction searched with
  | found answers =>
      cases result
      exact .here inside answers
  | missed => cases result
  | @step here parent _ silent leads _ ih =>
      have older := (formed.frames here).parent parent leads
      exact .outer inside silent leads older (ih (Nat.lt_trans older inside) result)

theorem lookup?_eq (found : heap.Finds name binding scope) :
    heap.lookup? scope name = some binding := by
  have walked : ∀ count, scope.index < count →
      (heap.framesFrom count scope).findSome? (heap.localBinding? · name) = some binding := by
    induction found with
    | here inside bound =>
        intro count below
        have nonzero : count ≠ 0 := Nat.ne_of_gt (Nat.zero_lt_of_lt below)
        rcases Nat.exists_eq_succ_of_ne_zero nonzero with ⟨count, rfl⟩
        rw [framesFrom, List.findSome?_cons, bound]
    | @outer ref parent inside unbound around older _ ih =>
        intro count below
        have nonzero : count ≠ 0 := Nat.ne_of_gt (Nat.zero_lt_of_lt below)
        rcases Nat.exists_eq_succ_of_ne_zero nonzero with ⟨count, rfl⟩
        have further := ih count (Nat.lt_of_lt_of_le older (Nat.le_of_lt_succ below))
        have leads : (heap.frame ref).parent = some parent := around
        rw [framesFrom, List.findSome?_cons, unbound, leads]
        exact further
  exact walked _ (Nat.lt_succ_self _)

/-- What a scope finds under a hidden name it finds for good. -/
theorem mono (found : heap.Finds name binding scope) (preserves : heap.Preserves hidden after)
    (isHidden : hidden name) : after.Finds name binding scope := by
  induction found with
  | here inside bound =>
      exact .here (inside.mono preserves.grows)
        ((preserves.bindings _ _ inside isHidden).trans bound)
  | outer inside unbound around older _ ih =>
      exact .outer (inside.mono preserves.grows)
        ((preserves.bindings _ _ inside isHidden).trans unbound)
        ((preserves.grows.parents _ inside).trans around) older ih

/-- A new frame finds what it binds itself. -/
theorem ofNew {frame : Frame} (bound : frame.bindings.get? name = some binding) :
    (heap.allocFrame frame).2.Finds name binding (heap.allocFrame frame).1 := by
  refine .here (hasFrame_allocFrame heap frame) ?_
  rw [localBinding?, frame_allocFrame]
  exact bound

/-- What it does not bind, a new frame finds as the scope around it does. -/
theorem inner (found : heap.Finds name binding scope) {frame : Frame}
    (inside : frame.parent = some scope) (unbound : frame.bindings.get? name = none) :
    (heap.allocFrame frame).2.Finds name binding (heap.allocFrame frame).1 := by
  have preserves : heap.Preserves (fun _ => True) (heap.allocFrame frame).2 :=
    preserves_allocFrame heap frame
  refine .outer (hasFrame_allocFrame heap frame) ?_ ?_ found.inside (found.mono preserves trivial)
  · rw [localBinding?, frame_allocFrame]
    exact unbound
  · rw [outer?, frame_allocFrame]
    exact inside

end Heap.Finds

end Hati
