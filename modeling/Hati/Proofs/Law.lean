import Hati.Proofs.Logic.Programs

namespace Hati

/-!
# Laws of evaluation

A law says what every evaluation does, however it ends: it changes the heap by
permitted effects only, and it leaves the settings, the outermost scope, the
number of open calls and the class under construction as they were.  A law
speaks about two runs at once, as any logic of evaluation does.
-/

/-- What evaluation may do, seen from a heap that it has passed through. -/
structure Law where
  permit : Permit
  /-- A heap that evaluation has passed through. -/
  since : Heap
  /-- The numbers of open calls, next to their limit, at which evaluation may start. -/
  calls : Nat → Nat → Prop
  /-- The ends of the first run after which the second one is not compared. -/
  abandons : Halt → Prop
  /-- Whether the first run may use up its fuel. -/
  exhausts : Prop
  stored : since.Stores permit.code
  code_parts : ∀ whole part, permit.code whole → part ∈ whole.parts → permit.code part
  code_assigns : ∀ code name, permit.code code → code.assigned? = some name →
    permit.assigns name := by exact fun _ _ _ _ => trivial
  declares_fresh : ∀ frame name, since.frames.size ≤ frame.index → permit.declares frame name
  owns_fresh : ∀ ref, since.objects.size ≤ ref.index → permit.owns ref
  clears_delete : ∀ target arguments span,
    permit.code (.expr ⟨.delete target arguments, span⟩) → permit.clears
  abandons_orAt : ∀ fault span, abandons (.fault fault) → abandons (.fault (fault.orAt span))

/-- How an evaluation changes the machine. -/
structure Machine.Evolves (permit : Permit) (before after : Machine) : Prop where
  path : Heap.Path permit before.heap after.heap
  globals : after.globals = before.globals
  settings : after.settings = before.settings
  callDepth : after.callDepth = before.callDepth
  constructing : after.constructing = before.constructing

namespace Machine.Evolves

variable {permit : Permit} {before middle after : Machine}

theorem refl (machine : Machine) : machine.Evolves permit machine :=
  ⟨.refl, rfl, rfl, rfl, rfl⟩

theorem trans (first : before.Evolves permit middle) (second : middle.Evolves permit after) :
    before.Evolves permit after where
  path := first.path.trans second.path
  globals := second.globals.trans first.globals
  settings := second.settings.trans first.settings
  callDepth := second.callDepth.trans first.callDepth
  constructing := second.constructing.trans first.constructing

theorem ofPath (machine : Machine) {heap : Heap} (path : Heap.Path permit machine.heap heap) :
    machine.Evolves permit { machine with heap } :=
  ⟨path, rfl, rfl, rfl, rfl⟩

end Machine.Evolves

/-! ## Stored code as nodes -/

namespace Heap

variable {heap : Heap} {code : Code → Prop} {known : Node → Prop}

/-- The nodes that declared the functions and classes consist of the stored code. -/
theorem Stores.draws (stored : heap.Stores code) : heap.Draws (Node.Consists code) where
  functions function member decl scope body := by
    rcases Array.getElem_of_mem member with ⟨index, inside, rfl⟩
    refine stored.functions ⟨index⟩ decl scope ?_
    simpa [Heap.function, inside] using body
  classes cls member := by
    rcases Array.getElem_of_mem member with ⟨index, inside, rfl⟩
    have declared := stored.classes ⟨index⟩
    simp only [Heap.class, Array.getD_eq_getD_getElem?, Array.getElem?_eq_getElem inside,
      Option.getD_some] at declared
    exact Node.consists_of_mem_class declared

theorem Stores.mono {weaker : Code → Prop} (stored : heap.Stores code)
    (implies : ∀ part, code part → weaker part) : heap.Stores weaker where
  functions ref decl scope body part member :=
    implies part (stored.functions ref decl scope body part member)
  classes ref part member := implies part (stored.classes ref part member)

theorem Draws.stores (draws : heap.Draws known)
    (consists : ∀ node, known node → node.Consists code) : heap.Stores code where
  functions _ _ _ body := consists _ (draws.function body)
  classes ref _ member :=
    Node.mem_class_of_consists (fun node declared => consists node (draws.class ref node declared))
      member

end Heap

/-! ## Moves as effects -/

namespace Logic

variable {terms : Terms} {permit : Permit} {heap : Heap}

/-- What the terms let the rules do the permit lets them do as well, and new cells may be
filled. -/
structure Terms.Within (terms : Terms) (permit : Permit) (heap : Heap) : Prop where
  code : ∀ node, terms.known node → node.Consists permit.code
  declares : ∀ frame name, terms.declares frame name → permit.declares frame name
  assigns : ∀ name, terms.assigns name → permit.assigns name
  owns : ∀ ref, terms.owns ref → permit.owns ref
  clears : terms.clears → permit.clears
  declares_fresh : ∀ name, permit.declares ⟨heap.frames.size⟩ name
  owns_fresh : permit.owns ⟨heap.objects.size⟩

/-- A new frame with its bindings is a new frame, and then declarations in it. -/
theorem Edit.path {after : Heap} (within : terms.Within permit heap)
    (edit : Edit terms heap after) : Heap.Path permit heap after := by
  have opened : ∀ parent, Heap.Effect permit heap (heap.allocFrame { parent := some parent }).2 :=
    .allocFrame heap
  have bound : ∀ (frame : Frame) name binding, Heap.Effect permit (heap.allocFrame frame).2
      (heap.allocFrame { frame with bindings := frame.bindings.insert name binding }).2 := by
    intro frame name binding
    rw [← Heap.bind_allocFrame]
    exact .declare _ _ name binding (within.declares_fresh name)
  cases edit with
  | enterCall closure receiver inside held =>
      cases receiver with
      | none => exact .single (opened closure)
      | some value =>
          exact .tail (.single (opened closure))
            (bound { parent := some closure } receiverName { value })
  | enterClass owner receiver owned held =>
      have first := bound { parent := some (heap.class owner).scope } receiverName
        { value := receiver }
      exact .tail (.tail (.single (opened _)) first)
        (bound (.ofCall (heap.class owner).scope (some receiver)) ownerName
          { value := .class owner })
  | declare scope name binding permitted held =>
      exact .single (.declare heap scope name binding (within.declares _ _ permitted))
  | assign frame name value old present changeable permitted held =>
      exact .single (.assign heap frame name value old present changeable
        (within.assigns name permitted))
  | newList items held => exact .single (.allocList heap items)
  | modifyList ref change held => exact .single (.modifyList heap ref change)
  | newObject object distinct held unlinked => exact .single (.allocObject heap object distinct)
  | insert ref key property owned held =>
      exact .single (.insert heap ref key property (within.owns ref owned))
  | add ref key value span thawed absent held =>
      exact .single (.add heap ref key value span thawed absent)
  | replace ref key value old thawed present writable held =>
      exact .single (.replace heap ref key value old thawed present writable)
  | freeze ref => exact .single (.freeze heap ref)
  | clear ref permitted => exact .single (.clear heap ref (within.clears permitted))
  | newBuiltin builtin held => exact .single (.allocBuiltin heap builtin)
  | newClosure decl scope known inside =>
      exact .single (.allocClosure heap decl scope (within.code _ known))
  | newClass cls known statics above inside =>
      refine .tail (.single (.allocObject heap {} List.nodup_nil)) (.allocClass _ cls ?_)
      intro part member
      exact Node.mem_class_of_consists (fun node declared => within.code node (known node declared))
        member

theorem Move.evolves {machine after : Machine} (within : terms.Within permit machine.heap)
    (move : Move terms machine after) : machine.Evolves permit after := by
  cases move with
  | edit edit => exact .ofPath machine (edit.path within)
  | make cls span held =>
      refine ⟨?_, rfl, rfl, rfl, rfl⟩
      exact .tail (.single (.allocObject machine.heap {} List.nodup_nil))
        (.insert _ _ classLinkName (classLink cls span) within.owns_fresh)
  | print | note | report | schedule => exact ⟨.refl, rfl, rfl, rfl, rfl⟩

end Logic

/-! ## The logic of a law -/

namespace Law

variable {law : Law}

/-- A heap that evaluation can come to. -/
abbrev Passes (law : Law) (heap : Heap) : Prop :=
  law.since.Path law.permit heap

/-- The same law for evaluations that start at other numbers of open calls. -/
def atCalls (law : Law) (calls : Nat → Nat → Prop) : Law :=
  { law with calls }

/-- A machine on which evaluation may start. -/
structure Reached (law : Law) (machine : Machine) : Prop where
  path : law.Passes machine.heap
  calls : law.calls machine.settings.maxCallDepth machine.callDepth

theorem Reached.evolve {before after : Machine} (reached : law.Reached before)
    (evolves : before.Evolves law.permit after) : law.Reached after where
  path := reached.path.trans evolves.path
  calls := by
    rw [evolves.settings, evolves.callDepth]
    exact reached.calls

/-- What a law speaks of; it asks nothing of places, values and scopes. -/
def terms (law : Law) : Logic.Terms where
  leads machine after := law.Reached machine ∧ machine.Evolves law.permit after
  ends halt := halt = .exhausted → law.exhausts
  abandons := law.abandons
  known := Node.Consists law.permit.code
  place _ := True
  binds _ := True
  assigns := law.permit.assigns
  declares := law.permit.declares
  owns := law.permit.owns
  clears := law.permit.clears
  evaluates _ _ := True
  executes _ _ := True

theorem Reached.within {machine : Machine} (reached : law.Reached machine) :
    law.terms.Within law.permit machine.heap where
  code _ known := known
  declares _ _ permitted := permitted
  assigns _ permitted := permitted
  owns _ owned := owned
  clears permitted := permitted
  declares_fresh name := law.declares_fresh _ name (Heap.Path.size_frames_le reached.path)
  owns_fresh := law.owns_fresh _ (Heap.Path.size_objects_le reached.path)

def logic (law : Law) : Logic where
  toTerms := law.terms
  self led := ⟨led.1.evolve led.2, .refl _⟩
  trans first second := ⟨first.1, first.2.trans second.2⟩
  moves valid move := ⟨valid.1, move.evolves valid.1.within⟩
  constructs valid _ := by
    refine ⟨⟨⟨valid.1.path, valid.1.calls⟩, .refl _⟩, fun after led => ⟨valid.1, ?_⟩⟩
    exact ⟨led.2.path, led.2.globals, led.2.settings, led.2.callDepth, rfl⟩
  formed := False.elim
  grows := False.elim
  draws valid := Heap.Stores.draws (Heap.Path.stores valid.1.path law.stored)
  ends_fault _ _ _ _ := nofun
  ends_stray _ _ _ _ _ := nofun
  ends_exit _ := nofun
  ends_orAt _ _ _ _ := nofun
  abandons_orAt := law.abandons_orAt
  known_parts _ _ known member := known.part law.code_parts member
  known_place _ _ := trivial
  known_binds _ _ _ _ := trivial
  known_assigns := law.code_assigns
  known_clears := law.clears_delete
  evaluates_later _ _ := trivial
  executes_later _ _ := trivial
  evaluates_of_executes _ := trivial
  inside_of_evaluates := False.elim
  opens _ _ := trivial
  receives _ := trivial
  declares_fresh name valid _ := valid.1.within.declares_fresh name
  owns_fresh valid := valid.1.within.owns_fresh
  settles led _ bound unbound := by
    rw [Heap.Path.isBound led.2.path bound] at unbound
    cases unbound

/-- The bodies of calls obey the law as well, at the numbers of open calls that they start
with. -/
theorem deepens {calls : Nat → Nat → Prop}
    (enters : ∀ limit depth, depth < limit → law.calls limit depth → calls limit (depth + 1)) :
    law.logic.Deepens (law.atCalls calls).logic where
  enters valid below := ⟨⟨valid.1.path, enters _ _ below valid.1.calls⟩, .refl _⟩
  leaves valid led := by
    refine ⟨valid.1, led.2.path, led.2.globals, led.2.settings, ?_, led.2.constructing⟩
    rw [led.2.callDepth]
    rfl
  ends _ ended := ended
  abandons _ abandoned := abandoned
  tracks := .rfl
  known _ known := known
  place _ here := here
  binds _ := trivial
  executes _ := trivial

/-- However the first run ends, it has changed the machine as the law permits. -/
theorem evolves {α : Type} {first second : Run α} {machine : Machine}
    {result : Machine → α → Prop} (relates : law.logic.Relates machine first second result)
    (reached : law.Reached machine) : machine.Evolves law.permit (first.leaves machine) :=
  (relates.leaves ⟨reached, .refl machine⟩).2

/-- A law that lets fuel run out and functions be called governs all evaluation. -/
theorem covers_ofFuel (exhausts : law.exhausts)
    (enters : ∀ limit depth, depth < limit → law.calls limit depth → law.calls limit (depth + 1))
    (fuel : Nat) : law.logic.Covers law.permit.code (.ofFuel fuel) (.ofFuel fuel) :=
  Logic.covers_ofFuel (fun _ => exhausts) (law.deepens enters) fuel

/-- A law asks nothing of values. -/
theorem held {machine : Machine} {value : Value} : law.logic.Held machine value :=
  False.elim

theorem relates_call {asked : Code → Prop} {ev other : Evaluator}
    (covers : law.logic.Covers asked ev other) {machine : Machine} {callee : Value}
    {receiver : Option Value} {args : List Value} {scope : FrameRef} {span : Span} :
    law.logic.Relates machine (ev.call callee receiver args scope span)
      (other.call callee receiver args scope span) law.logic.Held :=
  covers.call trivial held (fun _ _ => held) fun _ _ => held

/-- A statement may be executed where every name may be declared. -/
theorem admits_of_declares {machine : Machine} {scope : FrameRef} {stmt : Stmt}
    (declares : ∀ name, law.permit.declares scope name) (code : law.permit.code (.stmt stmt)) :
    law.logic.Admits machine stmt scope :=
  Logic.Open.admits ⟨trivial, fun name _ => declares name⟩ code

/-- Everything may be done, at the given numbers of open calls. -/
def unrestricted (heap : Heap) (calls : Nat → Nat → Prop) : Law where
  permit := ⟨fun _ => True, fun _ _ => True, fun _ => True, fun _ => True, True⟩
  since := heap
  calls := calls
  abandons _ := False
  exhausts := True
  stored := ⟨fun _ _ _ _ _ _ => trivial, fun _ _ _ => trivial⟩
  code_parts _ _ _ _ := trivial
  declares_fresh _ _ _ := trivial
  owns_fresh _ _ := trivial
  clears_delete _ _ _ _ := trivial
  abandons_orAt _ _ impossible := impossible

/-! ## A new machine -/

/-- No code is stored at all. -/
def codeless (heap : Heap) (stored : heap.Stores fun _ => False) : Law where
  permit := ⟨fun _ => False, fun _ _ => True, fun _ => True, fun _ => True, True⟩
  since := heap
  calls _ _ := True
  abandons _ := False
  exhausts := True
  stored := stored
  code_parts _ _ impossible _ := impossible
  declares_fresh _ _ _ := trivial
  owns_fresh _ _ := trivial
  clears_delete _ _ _ _ := trivial
  abandons_orAt _ _ impossible := impossible

end Law

namespace Machine

variable (settings : Settings) (outputLimit : Option Nat) (threads : ThreadPolicy)

theorem bare_stores (code : Code → Prop) : (bare settings outputLimit threads).heap.Stores code :=
  .ofEmpty rfl rfl code

theorem bare_evolves_new :
    (bare settings outputLimit threads).Evolves
      (Law.codeless _ (bare_stores settings outputLimit threads fun _ => False)).permit
      (new settings outputLimit threads) := by
  let law := Law.codeless _ (bare_stores settings outputLimit threads fun _ => False)
  have valid : law.logic.leads (bare settings outputLimit threads)
      (bare settings outputLimit threads) := ⟨⟨.refl, trivial⟩, .refl _⟩
  have led : law.logic.leads (bare settings outputLimit threads)
      (new settings outputLimit threads) := Logic.Relates.leads_new (fun _ => trivial) valid
  exact led.2

theorem new_stores (code : Code → Prop) :
    (new settings outputLimit threads).heap.Stores code := by
  have path := (bare_evolves_new settings outputLimit threads).path
  have stores := Heap.Path.stores path (bare_stores settings outputLimit threads _)
  exact stores.mono fun _ => False.elim

end Machine

end Hati
