import Hati.Proofs.Deeds
import Hati.Proofs.Frames
import Hati.Proofs.Jumps
import Hati.Proofs.Node

namespace Hati

/-!
# Logics of evaluation

What holds of all evaluation is shown for one rule of the language at a time, from the
assumption that it holds of the evaluations which the rule asks for.  The walk over the
rules is the same whatever is shown: it knows which code stands where, which values the
heap holds, which scope a part is evaluated in, and which single moves a rule makes.  A
logic says what is made of that.

It speaks of two runs from one machine.  The second one has to end exactly like the first,
unless the first is abandoned; taken with two equal runs a logic states an invariant, and
with different ones it compares two ways to evaluate.  Here are the notions of a logic and
the laws that the walk relies on.
-/

/-- The functions and classes of the heap were declared by known nodes. -/
structure Heap.Draws (known : Node → Prop) (heap : Heap) : Prop where
  functions : ∀ function ∈ heap.functions, ∀ decl scope, function.body = .closure decl scope →
    known (.function decl)
  classes : ∀ cls ∈ heap.classes, ∀ node ∈ cls.decl.nodes, known node

namespace Heap

variable {known : Node → Prop} {heap : Heap}

/-- A class outside the heap has neither fields nor methods. -/
theorem Draws.class (draws : heap.Draws known) (cls : ClassRef) :
    ∀ node ∈ (heap.class cls).decl.nodes, known node := by
  rw [Heap.class, Array.getD_eq_getD_getElem?]
  cases stored : heap.classes[cls.index]? with
  | none => exact fun _ member => by cases member
  | some declared => exact draws.classes declared (Array.mem_of_getElem? stored)

/-- A function outside the heap is built in. -/
theorem Draws.function (draws : heap.Draws known) {ref : FunctionRef} {decl : FunctionDecl}
    {scope : FrameRef} (body : (heap.function ref).body = .closure decl scope) :
    known (.function decl) := by
  rw [Heap.function, Array.getD_eq_getD_getElem?] at body
  cases stored : heap.functions[ref.index]? with
  | none =>
      rw [stored] at body
      cases body
  | some function =>
      rw [stored] at body
      exact draws.functions function (Array.mem_of_getElem? stored) decl scope body

/-- A heap without functions and classes draws on nothing. -/
theorem Draws.ofEmpty (functions : heap.functions = #[]) (classes : heap.classes = #[]) :
    heap.Draws known where
  functions := by
    rw [functions]
    exact nofun
  classes := by
    rw [classes]
    exact nofun

end Heap

namespace Logic

/-- What a logic speaks of. -/
structure Terms where
  /-- Evaluation may come from the first machine to the second.  A machine that leads to
  itself is one that evaluation may be on. -/
  leads : Machine → Machine → Prop
  /-- The ends of a first run that the second one has to share. -/
  ends : Halt → Prop
  /-- The ends of a first run after which the second one is not compared. -/
  abandons : Halt → Prop := fun _ => False
  /-- Whether it matters that references lead to cells of the heap. -/
  tracks : Prop := False
  /-- The nodes of the program. -/
  known : Node → Prop
  /-- Where faults may be placed. -/
  place : Span → Prop
  /-- The names that known code declares. -/
  binds : String → Prop
  /-- The names that get new values where they are bound. -/
  assigns : String → Prop
  /-- The names that may be declared in a frame, whatever the frame holds. -/
  declares : FrameRef → String → Prop
  /-- The objects that are given properties without asking their restrictions. -/
  owns : ObjectRef → Prop
  /-- Whether objects may lose all their properties. -/
  clears : Prop
  /-- The scopes that expressions are evaluated in. -/
  evaluates : Machine → FrameRef → Prop
  /-- The scopes that statements are executed in. -/
  executes : Machine → FrameRef → Prop

namespace Terms

variable (terms : Terms)

/-- The heap holds the value, if that matters. -/
def Held (machine : Machine) (value : Value) : Prop :=
  terms.tracks → machine.heap.Holds value

def HeldItems (machine : Machine) (items : List Value) : Prop :=
  ∀ item ∈ items, terms.Held machine item

/-- The scope is in the heap, if that matters. -/
def Inside (machine : Machine) (scope : FrameRef) : Prop :=
  terms.tracks → machine.heap.HasFrame scope

end Terms

/-- One change that the rules make to the heap, with what is known when it is made. -/
inductive Edit (terms : Terms) (heap : Heap) : Heap → Prop where
  | enterCall (closure : FrameRef) (receiver : Option Value)
    (inside : terms.tracks → heap.HasFrame closure)
    (held : ∀ value ∈ receiver, terms.tracks → heap.Holds value) :
    Edit terms heap (heap.allocFrame (.ofCall closure receiver)).2
  | enterClass (owner : ClassRef) (receiver : Value)
    (owned : terms.tracks → heap.Holds (.class owner)) (held : terms.tracks → heap.Holds receiver) :
    Edit terms heap (heap.allocFrame (heap.receiverFrame owner receiver)).2
  | declare (scope : FrameRef) (name : String) (binding : Binding)
    (permitted : terms.declares scope name) (held : terms.tracks → heap.Holds binding.value) :
    Edit terms heap (heap.bind scope name binding)
  | assign (frame : FrameRef) (name : String) (value : Value) (old : Binding)
    (bound : heap.localBinding? frame name = some old) (changeable : old.isConstant = false)
    (permitted : terms.assigns name) (held : terms.tracks → heap.Holds value) :
    Edit terms heap (heap.bind frame name { value })
  | newList (items : Array Value) (held : terms.tracks → heap.HoldsItems items.toList) :
    Edit terms heap (heap.allocList items).2
  | modifyList (ref : ListRef) (change : Array Value → Array Value)
    (held : terms.tracks → heap.HoldsItems (change (heap.list ref)).toList) :
    Edit terms heap (heap.modifyList ref change)
  | newObject (object : Object) (distinct : object.properties.keys.Nodup)
    (held : terms.tracks → heap.HoldsObject object) (unlinked : terms.tracks → object.IsUnlinked) :
    Edit terms heap (heap.allocObject object).2
  | insert (ref : ObjectRef) (key : String) (property : Property) (owned : terms.owns ref)
    (held : terms.tracks → heap.Holds property.value) :
    Edit terms heap (heap.modifyObject ref fun object => object.insert key property)
  | add (ref : ObjectRef) (key : String) (value : Value) (span : Span)
    (thawed : (heap.object ref).isFrozen = false)
    (absent : (heap.object ref).properties.get? key = none)
    (held : terms.tracks → heap.Holds value) :
    Edit terms heap (heap.modifyObject ref fun object => object.insert key { value, span })
  | replace (ref : ObjectRef) (key : String) (value : Value) (old : Property)
    (thawed : (heap.object ref).isFrozen = false)
    (present : (heap.object ref).properties.get? key = some old)
    (writable : old.access.isReadonly = false) (held : terms.tracks → heap.Holds value) :
    Edit terms heap (heap.modifyObject ref fun object => object.replaceValue key value)
  | freeze (ref : ObjectRef) :
    Edit terms heap (heap.modifyObject ref fun object => { object with isFrozen := true })
  | clear (ref : ObjectRef) (permitted : terms.clears) :
    Edit terms heap (heap.modifyObject ref Object.clear)
  | newBuiltin (builtin : Builtin) (held : terms.tracks → heap.HoldsBody (.builtin builtin)) :
    Edit terms heap (heap.allocFunction (.ofBuiltin builtin)).2
  | newClosure (decl : FunctionDecl) (scope : FrameRef) (known : terms.known (.function decl))
    (inside : terms.tracks → heap.HasFrame scope) :
    Edit terms heap (heap.allocFunction (.ofDecl decl scope)).2
  | newClass (cls : Class) (known : ∀ node ∈ cls.decl.nodes, terms.known node)
    (statics : cls.statics = (heap.allocObject {}).1)
    (above : terms.tracks → ∀ parent ∈ cls.superclass, heap.Holds (.class parent))
    (inside : terms.tracks → heap.HasFrame cls.scope) :
    Edit terms heap ((heap.allocObject {}).2.allocClass cls).2

/-- One change that the rules make to the machine. -/
inductive Move (terms : Terms) (machine : Machine) : Machine → Prop where
  | edit {heap : Heap} (edit : Edit terms machine.heap heap) :
    Move terms machine { machine with heap }
  | make (cls : ClassRef) (span : Span) (held : terms.tracks → machine.heap.Holds (.class cls)) :
    Move terms machine
      { machine with
        heap := Machine.instanceHeap machine.heap cls span
        journal := machine.journal.push (.constructing (machine.heap.class cls).name) }
  | print (console : Console) : Move terms machine { machine with console }
  | note (event : Event) (harmless : event.level ≠ .warn) (otherwise : event.constructed? = none) :
    Move terms machine { machine with journal := machine.journal.push event }
  | report (fault : Fault) (job : Job) (admitted : terms.ends (.fault fault)) :
    Move terms machine { machine with journal := machine.journal.push (.callbackFailed fault job) }
  | schedule (scheduler : Scheduler Value)
    (held : terms.tracks → Machine.HoldsTasks machine.heap scheduler.tasks) :
    Move terms machine { machine with scheduler }

variable {terms : Terms}

/-- A function or class that is added was declared by a known node. -/
theorem Edit.draws {heap after : Heap} (edit : Edit terms heap after)
    (draws : heap.Draws terms.known) : after.Draws terms.known := by
  cases edit with
  | newBuiltin builtin held =>
      refine ⟨fun stored member => ?_, draws.classes⟩
      rcases Array.mem_push.mp member with former | rfl
      · exact draws.functions stored former
      · exact nofun
  | newClosure decl scope known inside =>
      refine ⟨fun stored member => ?_, draws.classes⟩
      rcases Array.mem_push.mp member with former | rfl
      · exact draws.functions stored former
      · rintro _ _ ⟨⟩
        exact known
  | newClass cls known statics above inside =>
      refine ⟨draws.functions, fun stored member => ?_⟩
      rcases Array.mem_push.mp member with former | rfl
      · exact draws.classes stored former
      · exact known
  | _ => exact ⟨draws.functions, draws.classes⟩

theorem Move.draws {machine after : Machine} (move : Move terms machine after)
    (draws : machine.heap.Draws terms.known) : after.heap.Draws terms.known := by
  cases move with
  | edit edit => exact edit.draws draws
  | _ => exact ⟨draws.functions, draws.classes⟩

end Logic

/-- Terms with the laws that the rules rely on. -/
structure Logic extends Logic.Terms where
  -- Where evaluation leads.
  self : ∀ {world machine}, leads world machine → leads machine machine
  trans : ∀ {world machine after}, leads world machine → leads machine after → leads world after
  moves : ∀ {machine after}, leads machine machine → Logic.Move toTerms machine after →
    leads machine after
  constructs : ∀ {machine cls}, leads machine machine →
    (tracks → machine.heap.Holds (.class cls)) →
    leads { machine with constructing := some cls } { machine with constructing := some cls } ∧
      ∀ after, leads { machine with constructing := some cls } after →
        leads machine { after with constructing := machine.constructing }
  formed : ∀ {machine}, tracks → leads machine machine → machine.WellFormed
  grows : ∀ {machine after}, tracks → leads machine after → machine.heap.Grows after.heap
  draws : ∀ {machine}, leads machine machine → machine.heap.Draws known
  -- How a run may end.
  ends_fault : ∀ cause span, cause.isStrayJump = false → place span → ends (.fault ⟨cause, span⟩)
  ends_stray : ∀ decl name jump, known (.function decl) → StrayAmong decl.body jump →
    ends (.fault ⟨.strayJumpIn name, decl.span⟩)
  ends_exit : ∀ code, ends (.exit code)
  ends_orAt : ∀ fault span, ends (.fault fault) → place span → ends (.fault (fault.orAt span))
  abandons_orAt : ∀ fault span, abandons (.fault fault) → abandons (.fault (fault.orAt span))
  -- What known code does.
  known_parts : ∀ whole part, known whole → part ∈ whole.parts → known part
  known_place : ∀ node, known node → place node.span
  known_binds : ∀ code name, known (.code code) → name ∈ code.ownNames → binds name
  known_assigns : ∀ code name, known (.code code) → code.assigned? = some name → assigns name
  known_clears : ∀ target args span, known (.code (.expr ⟨.delete target args, span⟩)) → clears
  -- Scopes and what may be declared in them.
  evaluates_later : ∀ {machine after scope}, leads machine after → evaluates machine scope →
    evaluates after scope
  executes_later : ∀ {machine after scope}, leads machine after → executes machine scope →
    executes after scope
  evaluates_of_executes : ∀ {machine scope}, executes machine scope → evaluates machine scope
  inside_of_evaluates : ∀ {machine scope}, tracks → evaluates machine scope →
    machine.heap.HasFrame scope
  opens : ∀ {machine scope}, leads machine machine → executes machine scope →
    executes { machine with heap := (machine.heap.allocFrame (.ofCall scope none)).2 }
      (machine.heap.allocFrame (.ofCall scope none)).1
  receives : ∀ {machine owner receiver}, leads machine machine →
    evaluates
      { machine with
        heap := (machine.heap.allocFrame (machine.heap.receiverFrame owner receiver)).2 }
      (machine.heap.allocFrame (machine.heap.receiverFrame owner receiver)).1
  declares_fresh : ∀ {machine} name, leads machine machine → binds name →
    declares ⟨machine.heap.frames.size⟩ name
  owns_fresh : ∀ {machine}, leads machine machine → owns ⟨machine.heap.objects.size⟩
  settles : ∀ {machine after scope name}, leads machine after → assigns name →
    machine.heap.isBound scope name = true → after.heap.isBound scope name = false →
    declares scope name

namespace Logic

variable {logic : Logic} {world machine after : Machine}

/-! ## What stays -/

theorem Terms.Held.later {value : Value} (held : logic.Held world value)
    (onward : logic.leads world after) : logic.Held after value :=
  fun tracks => (held tracks).mono (logic.grows tracks onward)

theorem Terms.HeldItems.later {items : List Value} (held : logic.HeldItems world items)
    (onward : logic.leads world after) : logic.HeldItems after items :=
  fun item member => (held item member).later onward

theorem Terms.Inside.later {scope : FrameRef} (inside : logic.Inside world scope)
    (onward : logic.leads world after) : logic.Inside after scope :=
  fun tracks => (inside tracks).mono (logic.grows tracks onward)

/-- Statements may be executed in the scope and declare there what known code declares. -/
structure Open (logic : Logic) (machine : Machine) (scope : FrameRef) : Prop where
  executes : logic.executes machine scope
  declares : ∀ name, logic.binds name → logic.declares scope name

theorem Open.later {scope : FrameRef} (fresh : logic.Open world scope)
    (onward : logic.leads world after) : logic.Open after scope :=
  ⟨logic.executes_later onward fresh.executes, fresh.declares⟩

/-- An assignment to the name may declare it, wherever it finds the name unbound. -/
def Settles (logic : Logic) (world : Machine) (scope : FrameRef) (name : String) : Prop :=
  ∀ machine, logic.leads world machine → machine.heap.isBound scope name = false →
    logic.declares scope name

theorem Settles.later {scope : FrameRef} {name : String}
    (settles : logic.Settles world scope name) (onward : logic.leads world after) :
    logic.Settles after scope name :=
  fun machine further => settles machine (logic.trans onward further)

/-- The statement may be executed in the scope and declare there what it declares. -/
def Admits (logic : Logic) (world : Machine) (stmt : Stmt) (scope : FrameRef) : Prop :=
  logic.executes world scope ∧
    match stmt.node with
    | .declare target _ _ => ∀ name ∈ target.boundNames, logic.declares scope name
    | .function decl => ∀ name ∈ decl.name, logic.declares scope name
    | .class decl => logic.declares scope decl.name
    | .assign ⟨.name name, _⟩ _ => logic.Settles world scope name
    | _ => True

theorem Open.admits {scope : FrameRef} (fresh : logic.Open world scope) {stmt : Stmt}
    (known : logic.known (.code (.stmt stmt))) : logic.Admits world stmt scope := by
  refine ⟨fresh.executes, ?_⟩
  have own : ∀ name ∈ (Code.stmt stmt).ownNames, logic.declares scope name :=
    fun name member => fresh.declares name (logic.known_binds _ name known member)
  rcases stmt with ⟨node, span⟩
  cases node with
  | declare target value isConstant => exact own
  | function decl => exact fun name named => own name (Option.mem_toList.mpr named)
  | «class» decl => exact own decl.name (List.mem_singleton_self _)
  | assign target value =>
      rcases target with ⟨target, targetSpan⟩
      cases target with
      | name name => exact fun _ _ _ => own name (List.mem_singleton_self _)
      | _ => trivial
  | _ => trivial

theorem Admits.later {scope : FrameRef} {stmt : Stmt} (admitted : logic.Admits world stmt scope)
    (onward : logic.leads world after) : logic.Admits after stmt scope := by
  refine ⟨logic.executes_later onward admitted.1, ?_⟩
  rcases stmt with ⟨node, span⟩
  have declares := admitted.2
  cases node with
  | assign target value =>
      rcases target with ⟨target, targetSpan⟩
      cases target with
      | name name => exact Settles.later declares onward
      | _ => trivial
  | _ => exact declares

/-! ## What is known -/

theorem known_code {whole part : Code} (known : logic.known (.code whole))
    (member : part ∈ whole.parts) : logic.known (.code part) := by
  have closed : ∀ node, (Node.code whole).Contains node → logic.known node := by
    intro node contains
    induction contains with
    | refl => exact known
    | tail _ inner ih => exact logic.known_parts _ _ ih inner
  exact closed _ (Node.contains_of_mem_parts member)

theorem known_body {decl : FunctionDecl} (known : logic.known (.function decl)) {part : Code}
    (member : part ∈ decl.parts) : logic.known (.code part) :=
  logic.known_parts _ _ known (List.mem_map_of_mem member)

theorem known_class (valid : logic.leads machine machine) (cls : ClassRef) :
    ∀ node ∈ (machine.heap.class cls).decl.nodes, logic.known node :=
  (logic.draws valid).class cls

theorem known_method (valid : logic.leads machine machine) {cls : ClassRef} {method : MethodDecl}
    (declared : method ∈ (machine.heap.class cls).decl.methods) :
    logic.known (.function method.function) :=
  known_class valid cls _ (ClassDecl.mem_nodes_of_method declared)

theorem known_function (valid : logic.leads machine machine) {ref : FunctionRef}
    {decl : FunctionDecl} {scope : FrameRef}
    (body : (machine.heap.function ref).body = .closure decl scope) :
    logic.known (.function decl) :=
  (logic.draws valid).function body

/-! ## What the heap holds -/

theorem held_list (valid : logic.leads machine machine) (ref : ListRef) :
    logic.HeldItems machine (machine.heap.list ref).toList :=
  fun item member tracks => (logic.formed tracks valid).heap.lists ref item member

theorem held_lookup (valid : logic.leads machine machine) {scope : FrameRef} {name : String}
    {binding : Binding} (found : machine.heap.lookup? scope name = some binding) :
    logic.Held machine binding.value :=
  fun tracks => (logic.formed tracks valid).heap.lookup? found

end Logic

end Hati
