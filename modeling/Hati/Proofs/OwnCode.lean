import Hati.Proofs.HiddenNames

namespace Hati

/-!
# Own code

The code of a function asks for evaluations of two kinds.  What stands in the function
itself, outside the functions and classes that it declares, is evaluated in the scope of
the call and in scopes inside that one: this is its own code.  What stands elsewhere is
evaluated elsewhere, the bodies of functions when they are called, and the initial
values of fields in scopes that are made for their classes.

An evaluator for own code follows the rules of the language, but may have another rule
for some expressions; all other code it leaves to ordinary evaluation.  To show that it
evaluates the same it is enough to look at these expressions, in the scopes in which own
code is evaluated.  That the other rules go together is what a logic says whose scopes
are these: they ask for own code in scopes of own code only, and for the same calls.
-/

/-! ## Scopes of own code -/

namespace Heap

variable {heap : Heap} {scope : FrameRef}

/-- The frame was made for the code of a class: it holds the class that its code belongs to. -/
def isClassFrame (heap : Heap) (ref : FrameRef) : Bool :=
  (heap.localBinding? ref ownerName).isSome

theorem isClassFrame_allocFrame (cls : ClassRef) (receiver : Value) :
    (heap.allocFrame (heap.receiverFrame cls receiver)).2.isClassFrame
      (heap.allocFrame (heap.receiverFrame cls receiver)).1 = true := by
  rw [isClassFrame, localBinding?, frame_allocFrame]
  rfl

end Heap

/-- Where own code is evaluated: in scopes that a later machine still counts among them,
and so it does with every new scope inside one. -/
structure Hosting where
  hidden : String → Prop
  owner : hidden ownerName
  hosts : Machine → FrameRef → Prop
  stays : ∀ {machine after scope}, machine.Continues hidden after → hosts machine scope →
    hosts after scope
  opens : ∀ {machine scope}, hosts machine scope →
    hosts { machine with heap := (machine.heap.allocFrame { parent := some scope }).2 }
      (machine.heap.allocFrame { parent := some scope }).1

namespace Hosting

variable {hosting : Hosting} {world machine after : Machine} {scope : FrameRef}

/-- A scope of own code, or one that was made for the code of a class. -/
def Admits (hosting : Hosting) (machine : Machine) (scope : FrameRef) : Prop :=
  hosting.hosts machine scope ∨
    machine.heap.HasFrame scope ∧ machine.heap.isClassFrame scope = true

theorem Admits.later (admitted : hosting.Admits world scope)
    (onward : world.Continues hosting.hidden after) : hosting.Admits after scope := by
  refine admitted.imp (hosting.stays onward) fun ⟨inside, isFrame⟩ => ?_
  refine ⟨inside.mono onward.preserves.grows, ?_⟩
  rw [Heap.isClassFrame, onward.preserves.bindings scope ownerName inside hosting.owner]
  exact isFrame

/-! ## The logic of own code -/

/-- What is said of own code: no hidden name is touched, and expressions are also asked for
in scopes that were made for a class. -/
def terms (hosting : Hosting) : Logic.Terms where
  leads machine after :=
    machine.heap.Stores (Code.Avoids hosting.hidden) ∧ machine.Continues hosting.hidden after
  ends _ := True
  known := Node.Consists (Code.Avoids hosting.hidden)
  place _ := True
  binds name := ¬ hosting.hidden name
  assigns name := ¬ hosting.hidden name
  declares _ name := ¬ hosting.hidden name
  owns _ := True
  clears := True
  evaluates := hosting.Admits
  executes := hosting.hosts

theorem continues_of_move (stores : machine.heap.Stores (Code.Avoids hosting.hidden))
    (move : Logic.Move hosting.terms machine after) : machine.Continues hosting.hidden after := by
  have within : hosting.terms.Within (Law.shielding hosting.hidden machine.heap stores).permit
      machine.heap :=
    { code := fun _ known => known
      declares := fun _ _ visible isHidden => absurd isHidden visible
      assigns := fun _ visible => visible
      owns := fun _ _ => trivial
      clears := fun _ => trivial
      declares_fresh := fun _ _ => Nat.le_refl _
      owns_fresh := trivial }
  exact .ofEvolves (move.evolves within)

def logic (hosting : Hosting) : Logic where
  toTerms := hosting.terms
  self led := ⟨led.2.stores, .refl led.2.stores⟩
  trans first second := ⟨first.1, first.2.trans second.2⟩
  moves valid move := ⟨valid.1, continues_of_move valid.1 move⟩
  constructs valid _ := by
    refine ⟨⟨valid.1, .refl valid.1⟩, fun after led => ⟨valid.1, ?_⟩⟩
    exact ⟨led.2.preserves, rfl, led.2.stores⟩
  formed := False.elim
  grows := False.elim
  draws valid := valid.1.draws
  ends_fault _ _ _ _ := trivial
  ends_stray _ _ _ _ _ := trivial
  ends_exit _ := trivial
  ends_orAt _ _ _ _ := trivial
  abandons_orAt _ _ := id
  known_parts _ _ known inside := known.part (fun _ _ avoids member => avoids.part member) inside
  known_place _ _ := trivial
  known_binds _ name avoids := avoids.own name
  known_assigns _ name avoids assigned := avoids.own name (Code.mem_ownNames_of_assigned? assigned)
  known_clears _ _ _ _ := trivial
  evaluates_later led admitted := admitted.later led.2
  executes_later led := hosting.stays led.2
  evaluates_of_executes := .inl
  inside_of_evaluates := False.elim
  opens _ := hosting.opens
  receives _ := .inr ⟨Heap.hasFrame_allocFrame _ _, Heap.isClassFrame_allocFrame _ _⟩
  declares_fresh _ _ visible := visible
  owns_fresh _ := trivial
  settles _ visible _ _ := visible

/-- A run that keeps off the hidden names does what it does, and leads on. -/
theorem relates_shielded {α : Type} {run : Run α}
    (shielded : ∀ heap stores machine,
      (Law.shielding hosting.hidden heap stores).logic.Relates machine run run) :
    hosting.logic.Relates world run run := by
  intro machine onward
  have continues := Machine.Continues.leaves (shielded machine.heap onward.2.stores machine)
  unfold Run.leaves at continues
  revert continues
  cases run machine with
  | ok a after => exact fun continues => ⟨⟨onward.2.stores, continues⟩, trivial, rfl⟩
  | error halt after => exact fun continues => ⟨⟨onward.2.stores, continues⟩, .inr ⟨trivial, rfl⟩⟩

/-- Values are not traced. -/
theorem held {value : Value} : hosting.logic.Held world value :=
  False.elim

/-- Two evaluators agree about own code: they do the same where it is evaluated, and ask
for the same calls. -/
abbrev Accords (hosting : Hosting) (ev other : Evaluator) : Prop :=
  hosting.logic.Covers (Code.Avoids hosting.hidden) ev other

/-- In scopes of own code the other rule does what the rules of the language do. -/
def Justifies (hosting : Hosting) (rule : Evaluator → Expr → FrameRef → Option (Run Value)) :
    Prop :=
  ∀ ⦃ev other : Evaluator⦄ ⦃world : Machine⦄ ⦃expr : Expr⦄ ⦃scope : FrameRef⦄ ⦃run : Run Value⦄,
    hosting.Accords ev other → (Code.expr expr).Avoids hosting.hidden → hosting.hosts world scope →
    rule other expr scope = some run →
    hosting.logic.Relates world (ev.expression expr scope) run

end Hosting

/-! ## The scope of a call -/

namespace Run

/-- What a deeper run does it does at one call depth more. -/
theorem deeper_congr {α : Type} {span : Span} {first second : Run α} {machine : Machine}
    (same : second machine.deeper = first machine.deeper) :
    deeper span second machine = deeper span first machine := by
  unfold Machine.deeper at same
  unfold deeper afterwards
  rw [same]

/-- A constructor does what it does while its class is the one under construction. -/
theorem constructingClass_congr {α : Type} {cls : ClassRef} {first second : Run α}
    {machine : Machine} (same : second { machine with constructing := some cls } =
      first { machine with constructing := some cls }) :
    constructingClass cls second machine = constructingClass cls first machine := by
  unfold constructingClass afterwards
  rw [same]

end Run

namespace Heap

variable {heap after : Heap} {cls : ClassRef} {scope : FrameRef} {receiver : Value}

/-- The scope knows the object that its code runs for and the class that the code belongs to. -/
structure Knows (heap : Heap) (scope : FrameRef) (receiver : Value) (cls : ClassRef) : Prop where
  receiver : heap.Finds receiverName { value := receiver } scope
  owner : heap.Finds ownerName { value := .class cls } scope

theorem hasFrame_of_parent {parent : FrameRef}
    (inside : (heap.frame scope).parent = some parent) : heap.HasFrame scope := by
  rcases Nat.lt_or_ge scope.index heap.frames.size with present | outside
  · exact present
  · rw [frame_of_size_le outside] at inside
    cases inside

/-- The frame of a class's own code knows both, and so does each call of its code for
the receiver. -/
theorem knows_of_receiverFrame (frame : heap.frame scope = heap.receiverFrame cls receiver) :
    heap.Knows scope receiver cls := by
  have inside := hasFrame_of_parent (congrArg Frame.parent frame)
  constructor
  · refine .here inside ?_
    rw [localBinding?, frame]
    rfl
  · refine .here inside ?_
    rw [localBinding?, frame]
    rfl

theorem Knows.mono {hidden : String → Prop} (knows : heap.Knows scope receiver cls)
    (preserves : heap.Preserves hidden after) (hidesReceiver : hidden receiverName)
    (hidesOwner : hidden ownerName) : after.Knows scope receiver cls :=
  ⟨knows.receiver.mono preserves hidesReceiver, knows.owner.mono preserves hidesOwner⟩

theorem Knows.call {other : Value} (knows : heap.Knows scope other cls) :
    (heap.allocFrame (.ofCall scope (some receiver))).2.Knows
      (heap.allocFrame (.ofCall scope (some receiver))).1 receiver cls where
  receiver := .ofNew rfl
  owner := knows.owner.inner rfl rfl

end Heap

/-! ## The evaluator for own code -/

namespace Evaluator

/-- Own code is evaluated by the rules of the language, or by another rule where there is
one; what is called, and the code in scopes that were made for a class, is left to
ordinary evaluation. -/
def ownCode (rule : Evaluator → Expr → FrameRef → Option (Run Value)) : Nat → Evaluator
  | 0 => exhausted
  | fuel + 1 =>
    { fuel := fuel
      eval := fun expr scope => do
        if ← Run.read fun heap => heap.isClassFrame scope then
          (ofFuel fuel).expression expr scope
        else
          match rule (ownCode rule fuel) expr scope with
          | some run => run
          | none => (ownCode rule fuel).expression expr scope
      exec := fun stmt scope => (ownCode rule fuel).statement stmt scope
      call := fun callee receiver args scope span =>
        (ofFuel fuel).invoke callee receiver args scope span }

theorem fuel_ownCode (rule : Evaluator → Expr → FrameRef → Option (Run Value)) (fuel : Nat) :
    (ownCode rule fuel).fuel = (ofFuel fuel).fuel := by
  cases fuel <;> rfl

end Evaluator

namespace Hosting

variable {hosting : Hosting} {rule : Evaluator → Expr → FrameRef → Option (Run Value)} {fuel : Nat}

/-- An expression is evaluated alike, in all scopes that own code asks for. -/
theorem Accords.eval_ownCode (justified : hosting.Justifies rule)
    (accords : hosting.Accords (.ofFuel fuel) (.ownCode rule fuel)) {world : Machine} {expr : Expr}
    {scope : FrameRef} (avoids : (Code.expr expr).Avoids hosting.hidden)
    (admitted : hosting.Admits world scope) :
    hosting.logic.Relates world ((Evaluator.ofFuel (fuel + 1)).eval expr scope)
      ((Evaluator.ownCode rule (fuel + 1)).eval expr scope) := by
  have ordinary : (Evaluator.ofFuel (fuel + 1)).eval expr scope =
      (do
        let _ ← Run.read fun heap => heap.isClassFrame scope
        (Evaluator.ofFuel fuel).expression expr scope) := rfl
  rw [ordinary]
  refine .readThen fun machine onward => ?_
  have admitted := admitted.later onward.2
  cases isFrame : machine.heap.isClassFrame scope with
  | true =>
      exact relates_shielded fun _ _ _ =>
        ((Law.shielding_covers (fuel + 1)).eval avoids trivial).forget
  | false =>
      have hosted : hosting.hosts machine scope :=
        admitted.resolve_right fun frame => by simp [isFrame] at frame
      show hosting.logic.Relates machine ((Evaluator.ofFuel fuel).expression expr scope)
        (match rule (.ownCode rule fuel) expr scope with
        | some run => run
        | none => (Evaluator.ownCode rule fuel).expression expr scope)
      cases special : rule (.ownCode rule fuel) expr scope with
      | none =>
          have parts : ∀ part ∈ expr.node.parts, part.Avoids hosting.hidden :=
            fun _ member => avoids.part member
          exact (accords.expression admitted avoids parts fun _ _ known => known).forget
      | some run => exact justified accords avoids hosted special

theorem accords_ownCode (justified : hosting.Justifies rule) :
    ∀ fuel, hosting.Accords (.ofFuel fuel) (.ownCode rule fuel)
  | 0 => Logic.covers_exhausted trivial
  | fuel + 1 => by
      have accords := accords_ownCode justified fuel
      have laps : hosting.logic.AllowsLaps (Evaluator.ofFuel fuel).fuel
          (Evaluator.ownCode rule fuel).fuel :=
        .inl ⟨trivial, (Evaluator.fuel_ownCode rule fuel).symm⟩
      exact
        { eval := fun avoids admitted =>
            (Accords.eval_ownCode justified accords avoids admitted).mono fun _ _ _ => held
          exec := fun avoids admitted =>
            accords.statement avoids (fun _ member => Code.Avoids.part avoids member) admitted
              fun _ => laps
          call := fun _ _ _ _ =>
            (relates_shielded fun _ _ _ =>
              (Law.relates_call (Law.shielding_covers (fuel + 1))).forget).mono fun _ _ _ => held
          known := fun _ avoids => avoids
          parts := fun _ _ avoids inside => avoids.part inside }

/-- Calls of the function, for this receiver, run in scopes of own code. -/
def Enters (hosting : Hosting) (closure : FrameRef) (receiver : Option Value) (world : Machine) :
    Prop :=
  ∀ machine, world.Continues hosting.hidden machine →
    hosting.hosts
      { machine with heap := (machine.heap.allocFrame (.ofCall closure receiver)).2 }
      (machine.heap.allocFrame (.ofCall closure receiver)).1

/-- A function is called as if its code were evaluated with the other rule. -/
theorem call_eq_ownCode (justified : hosting.Justifies rule) {machine : Machine}
    (stores : machine.heap.Stores (Code.Avoids hosting.hidden)) {ref : FunctionRef}
    {decl : FunctionDecl} {closure : FrameRef} (avoids : (Node.function decl).Avoids hosting.hidden)
    (body : (machine.heap.function ref).body = .closure decl closure) {receiver : Option Value}
    (enters : hosting.Enters closure receiver machine) (fuel : Nat) (args : List Value)
    (scope : FrameRef) (span : Span) :
    (Evaluator.ofFuel (fuel + 1)).call (.function ref) receiver args scope span machine =
      Run.deeper span ((Evaluator.ownCode rule fuel).activate (machine.heap.function ref).name decl
        closure receiver args span) machine := by
  rw [Evaluator.call_ofFuel_succ, Evaluator.invoke_function, body]
  refine Run.deeper_congr ?_
  have deeper : machine.Continues hosting.hidden machine.deeper := ⟨.refl _, rfl, stores⟩
  have accords := accords_ownCode justified fuel
  have activated : hosting.logic.Relates machine
      ((Evaluator.ofFuel fuel).activate (machine.heap.function ref).name decl closure receiver args
        span)
      ((Evaluator.ownCode rule fuel).activate (machine.heap.function ref).name decl closure receiver
        args span) hosting.logic.Held :=
    accords.activate trivial
      (fun param declared => avoids.own param.name (List.mem_map_of_mem declared))
      avoids.consists avoids.consists (fun here onward => enters here onward.2) False.elim
      (fun _ _ => held) fun _ _ => held
  exact (activated.eq ⟨stores, deeper⟩ fun _ => id).symm

end Hosting

end Hati
