import Hati.Proofs.Law

namespace Hati

/-!
# Scope integrity

Evaluation gives new values to variables that are there, and otherwise declares
names only in frames of its own.  The frames that were there before keep their
names, and constants keep their values; an exception are the names that a
statement itself declares, which go into the frame it is executed in.  Variables
of blocks, loops, functions and classes are thus out of sight as soon as the code
that declared them has ended, even if it failed.
-/

/-! ## Bindings -/

namespace Binding

/-- What evaluation makes of the binding of a name that it does not declare: a
name stays bound or unbound, and only a variable that is not constant may change. -/
def Kept : Option Binding → Option Binding → Prop
  | none, none => True
  | some old, some new =>
    new.isConstant = old.isConstant ∧ (old.isConstant = true → new.value = old.value)
  | _, _ => False

namespace Kept

variable {first second third : Option Binding}

theorem refl : ∀ binding, Kept binding binding
  | none => trivial
  | some _ => ⟨rfl, fun _ => rfl⟩

theorem trans (earlier : Kept first second) (later : Kept second third) : Kept first third := by
  match first, second, third, earlier, later with
  | none, none, none, _, _ => trivial
  | some _, some _, some _, ⟨flag, value⟩, ⟨flag', value'⟩ =>
      refine ⟨flag'.trans flag, fun constant => ?_⟩
      exact (value' (flag.trans constant)).trans (value constant)

/-- A search comes to a kept binding if it goes through kept bindings. -/
theorem findSome? {ι : Type} {before after : ι → Option Binding} :
    ∀ {items : List ι}, (∀ item ∈ items, Kept (before item) (after item)) →
      Kept (items.findSome? before) (items.findSome? after)
  | [], _ => trivial
  | item :: items, each => by
      have kept := each item List.mem_cons_self
      rw [List.findSome?_cons, List.findSome?_cons]
      cases was : before item with
      | none =>
          cases becomes : after item with
          | none =>
              exact findSome? fun other member => each other (List.mem_cons_of_mem item member)
          | some binding => simp [was, becomes, Kept] at kept
      | some binding =>
          cases becomes : after item with
          | none => simp [was, becomes, Kept] at kept
          | some other => simpa only [was, becomes] using kept

end Kept

end Binding

namespace Heap

variable {permit : Permit} {heap after : Heap}

theorem Effect.kept (effect : Effect permit heap after) {frame : FrameRef} {name : String}
    (allocated : frame.index < heap.frames.size) (undeclared : ¬ permit.declares frame name) :
    Binding.Kept (heap.localBinding? frame name) (after.localBinding? frame name) := by
  rcases effect.frames_cases with same | ⟨parent, same⟩ | ⟨target, key, binding, same, cause⟩
  · simp only [Heap.localBinding?, Heap.frame, same]
    exact .refl _
  · simp only [Heap.localBinding?, frame_of_frames_push same allocated]
    exact .refl _
  · have moved : after.localBinding? frame name =
        (heap.bind target key binding).localBinding? frame name := by
      simp only [Heap.localBinding?, frame_of_frames_bind same]
    rw [moved, localBinding?_bind allocated]
    split
    · rename_i here
      obtain ⟨rfl, rfl⟩ := here
      rcases cause with permitted | ⟨old, bound, changeable, stays⟩
      · exact absurd permitted undeclared
      · rw [bound]
        refine ⟨stays.trans changeable.symm, fun constant => ?_⟩
        exact absurd (changeable.symm.trans constant) (by decide)
    · exact .refl _

theorem Path.kept (path : Path permit heap after) {frame : FrameRef} {name : String}
    (allocated : frame.index < heap.frames.size) (undeclared : ¬ permit.declares frame name) :
    Binding.Kept (heap.localBinding? frame name) (after.localBinding? frame name) := by
  induction path with
  | refl => exact .refl _
  | tail path effect ih =>
      have still := Nat.lt_of_lt_of_le allocated (Path.size_frames_le path)
      exact ih.trans (effect.kept still undeclared)

/-! ## Scopes -/

/-- All frames of the scope are in the heap. -/
def HasScope (heap : Heap) (scope : FrameRef) : Prop :=
  ∀ frame ∈ heap.scopeChain scope, frame.index < heap.frames.size

/-- The chain stays what it is if its frames keep their parents. -/
theorem framesFrom_congr :
    ∀ (count : Nat) (scope : FrameRef),
      (∀ frame ∈ heap.framesFrom count scope,
        (after.frame frame).parent = (heap.frame frame).parent) →
      after.framesFrom count scope = heap.framesFrom count scope
  | 0, _, _ => rfl
  | count + 1, scope, parents => by
      simp only [Heap.framesFrom] at parents ⊢
      rw [parents scope List.mem_cons_self]
      cases outer : (heap.frame scope).parent with
      | none => rfl
      | some parent =>
          have rest := framesFrom_congr count parent fun frame member =>
            parents frame (List.mem_cons_of_mem scope (by simpa only [outer] using member))
          exact congrArg (scope :: ·) rest

/-- The names of the frames that were there before are what they were, except for
the names declared in one of them, and so is what code in these frames sees. -/
structure KeepsScopes (before after : Heap) (scope : FrameRef) (declared : List String) :
    Prop where
  size_le : before.frames.size ≤ after.frames.size
  parents : ∀ frame : FrameRef, frame.index < before.frames.size →
    (after.frame frame).parent = (before.frame frame).parent
  bindings : ∀ (frame : FrameRef) (name : String), frame.index < before.frames.size →
    ¬ (frame = scope ∧ name ∈ declared) →
    Binding.Kept (before.localBinding? frame name) (after.localBinding? frame name)
  visible : ∀ (inner : FrameRef) (name : String), before.HasScope inner →
    ¬ (scope ∈ before.scopeChain inner ∧ name ∈ declared) →
    Binding.Kept (before.lookup? inner name) (after.lookup? inner name)

theorem Path.keepsScopes (path : Path permit heap after) {scope : FrameRef}
    {declared : List String}
    (declares : ∀ frame name, permit.declares frame name →
      heap.frames.size ≤ frame.index ∨ frame = scope ∧ name ∈ declared) :
    heap.KeepsScopes after scope declared := by
  have parents : ∀ frame : FrameRef, frame.index < heap.frames.size →
      (after.frame frame).parent = (heap.frame frame).parent :=
    fun frame allocated => Path.parent_frame path allocated
  have bindings : ∀ (frame : FrameRef) (name : String), frame.index < heap.frames.size →
      ¬ (frame = scope ∧ name ∈ declared) →
      Binding.Kept (heap.localBinding? frame name) (after.localBinding? frame name) := by
    intro frame name allocated undeclared
    refine Path.kept path allocated fun permitted => ?_
    rcases declares frame name permitted with fresh | exempt
    · exact absurd allocated (Nat.not_lt_of_le fresh)
    · exact undeclared exempt
  refine ⟨Path.size_frames_le path, parents, bindings, ?_⟩
  intro inner name present undeclared
  have chain : after.scopeChain inner = heap.scopeChain inner :=
    framesFrom_congr _ inner fun frame member => parents frame (present frame member)
  rw [Heap.lookup?, Heap.lookup?, chain]
  refine Binding.Kept.findSome? fun frame member => ?_
  refine bindings frame name (present frame member) ?_
  rintro ⟨rfl, listed⟩
  exact undeclared ⟨member, listed⟩

end Heap

/-! ## Evaluation -/

namespace Stmt

/-- The names that a statement declares in the scope it is executed in.  An
assignment declares a name only if the scope does not bind it. -/
def declaredNames (heap : Heap) (scope : FrameRef) (stmt : Stmt) : List String :=
  match stmt.node with
  | .declare target _ _ => target.boundNames
  | .function decl => decl.name.toList
  | .class decl => [decl.name]
  | .assign ⟨.name name, _⟩ _ => if heap.isBound scope name then [] else [name]
  | _ => []

end Stmt

namespace Law

/-- Names are declared in new frames, or else among the given ones in the given scope. -/
def declaring (heap : Heap) (scope : FrameRef) (declared : List String) : Law where
  permit :=
    { code := fun _ => True
      declares := fun frame name =>
        heap.frames.size ≤ frame.index ∨ frame = scope ∧ name ∈ declared
      owns := fun _ => True
      clears := True }
  since := heap
  calls _ _ := True
  abandons _ := False
  exhausts := True
  stored := ⟨fun _ _ _ _ _ _ => trivial, fun _ _ _ => trivial⟩
  code_parts _ _ _ _ := trivial
  declares_fresh _ _ fresh := .inl fresh
  owns_fresh _ _ := trivial
  clears_delete _ _ _ _ := trivial
  abandons_orAt _ _ impossible := impossible

theorem declaring_covers (heap : Heap) (scope : FrameRef) (declared : List String) (fuel : Nat) :
    (declaring heap scope declared).logic.Covers (fun _ => True) (.ofFuel fuel) (.ofFuel fuel) :=
  (declaring heap scope declared).covers_ofFuel trivial (fun _ _ _ _ => trivial) fuel

theorem admits_declaredNames (machine : Machine) (scope : FrameRef) (stmt : Stmt) :
    (declaring machine.heap scope (stmt.declaredNames machine.heap scope)).logic.Admits machine
      stmt scope := by
  refine ⟨trivial, ?_⟩
  obtain ⟨node, span⟩ := stmt
  cases node with
  | declare target value isConstant => exact fun name member => .inr ⟨rfl, member⟩
  | function decl => exact fun name member => .inr ⟨rfl, Option.mem_toList.mpr member⟩
  | «class» decl => exact .inr ⟨rfl, List.mem_cons_self⟩
  | assign target value =>
      obtain ⟨targetNode, targetSpan⟩ := target
      cases targetNode with
      | name name =>
          intro later led unbound
          refine .inr ⟨rfl, ?_⟩
          -- What was bound at the start would still be bound when the value is stored.
          have unboundBefore : machine.heap.isBound scope name = false := by
            cases before : machine.heap.isBound scope name with
            | false => rfl
            | true => exact (Heap.Path.isBound led.2.path before).symm.trans unbound
          simp [Stmt.declaredNames, unboundBefore]
      | _ => trivial
  | _ => trivial

end Law

namespace Evaluator

/-- Whatever an evaluation calls and however it ends, it leaves the names of all
frames that were there before as they were, except for the names that the
statement itself declares in its scope. -/
theorem keeps_scopes (fuel : Nat) (machine : Machine) (scope : FrameRef) :
    (∀ expr : Expr, machine.heap.KeepsScopes
      (((ofFuel fuel).eval expr scope).leaves machine).heap scope []) ∧
    (∀ stmt : Stmt, machine.heap.KeepsScopes
      (((ofFuel fuel).exec stmt scope).leaves machine).heap scope
      (stmt.declaredNames machine.heap scope)) := by
  constructor
  · intro expr
    have covers := Law.declaring_covers machine.heap scope [] fuel
    have evolves : machine.Evolves (Law.declaring machine.heap scope []).permit
        (((ofFuel fuel).eval expr scope).leaves machine) :=
      Law.evolves (covers.eval trivial trivial) ⟨.refl, trivial⟩
    exact Heap.Path.keepsScopes evolves.path fun _ _ permitted => permitted
  · intro stmt
    let declared := stmt.declaredNames machine.heap scope
    have covers := Law.declaring_covers machine.heap scope declared fuel
    have relates := covers.exec trivial (Law.admits_declaredNames machine scope stmt)
    have evolves := Law.evolves relates ⟨.refl, trivial⟩
    exact Heap.Path.keepsScopes evolves.path fun _ _ permitted => permitted

end Evaluator

end Hati
