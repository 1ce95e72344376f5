import Hati.Proofs.Chain
import Hati.Proofs.Logic.Library
import Hati.Proofs.Logic.Objects

namespace Hati

/-!
# Calls and expressions

The body of a function runs in a new scope inside the one that the function closes over,
and with one open call more; a built-in function runs at once.  Only the bodies of calls
may follow another logic than the code around them.  An expression asks for its parts, and
only a construction asks for other code.
-/

namespace ExprNode

/-- An expression that makes an instance of a class. -/
def isConstruct : ExprNode → Bool
  | .construct .. => true
  | _ => false

end ExprNode

namespace Value

/-- Whether the value is a built-in function. -/
def isBuiltin (heap : Heap) : Value → Bool
  | function ref => (heap.function ref).isBuiltin
  | _ => false

end Value

/-- A call runs what the heap holds for the function at that moment. -/
theorem Evaluator.invoke_function (ev : Evaluator) (ref : FunctionRef) (receiver : Option Value)
    (args : List Value) (scope : FrameRef) (span : Span) (machine : Machine) :
    ev.invoke (.function ref) receiver args scope span machine =
      (match (machine.heap.function ref).body with
        | .builtin builtin => Run.orAt span (ev.runBuiltin builtin args scope span)
        | .closure decl closure => Run.deeper span
          (ev.activate (machine.heap.function ref).name decl closure receiver args span)) machine :=
  rfl

/-- The machine inside one call more. -/
def Machine.deeper (machine : Machine) : Machine :=
  { machine with callDepth := machine.callDepth + 1 }

namespace Logic

variable {logic : Logic} {world machine after : Machine} {span : Span}

/-! ## How statements end -/

namespace Signals

variable {jumps weaker : Jump → Prop} {signal : Signal}

theorem proceed : logic.Signals jumps machine .proceed := by
  refine ⟨?_, .proceed⟩
  rintro _ ⟨⟩

theorem broke (strays : jumps .break) : logic.Signals jumps machine .broke := by
  refine ⟨?_, .broke strays⟩
  rintro _ ⟨⟩

theorem continued (strays : jumps .continue) : logic.Signals jumps machine .continued := by
  refine ⟨?_, .continued strays⟩
  rintro _ ⟨⟩

theorem returned {value : Value} (held : logic.Held machine value) :
    logic.Signals jumps machine (.returned value) := by
  refine ⟨?_, .returned⟩
  rintro _ ⟨⟩
  exact held

theorem mono (signals : logic.Signals jumps machine signal)
    (implies : ∀ jump, jumps jump → weaker jump) : logic.Signals weaker machine signal :=
  ⟨signals.held, signals.jumps.mono implies⟩

theorem later (signals : logic.Signals jumps machine signal)
    (onward : logic.leads machine after) : logic.Signals jumps after signal :=
  ⟨fun value same => (signals.held value same).later onward, signals.jumps⟩

end Signals

/-- A call of the function, for this receiver, executes its body in a scope for statements. -/
def Enters (logic : Logic) (world : Machine) (closure : FrameRef) (receiver : Option Value) :
    Prop :=
  ∀ machine, logic.leads world machine →
    logic.executes { machine with heap := (machine.heap.allocFrame (.ofCall closure receiver)).2 }
      (machine.heap.allocFrame (.ofCall closure receiver)).1

theorem Relates.enterCall {closure : FrameRef} {receiver : Option Value}
    (enters : logic.Enters world closure receiver) (inside : logic.Inside world closure)
    (held : ∀ value ∈ receiver, logic.Held world value) :
    logic.Relates world (Run.enterCall closure receiver) (Run.enterCall closure receiver)
      logic.Open := by
  intro machine onward
  have valid := logic.self onward
  rw [Run.enterCall_apply]
  refine ⟨logic.moves valid (.edit ?_), ⟨enters machine onward, ?_⟩, rfl⟩
  · exact .enterCall closure receiver (inside.later onward) fun value member =>
      (held value member).later onward
  · exact fun name binds => logic.declares_fresh name valid binds

namespace Covers

variable {asked : Code → Prop} {ev other : Evaluator} {scope : FrameRef}

/-! ## Blocks -/

theorem block (covers : logic.Covers asked ev other) (body : List Stmt) :
    ∀ {world : Machine}, logic.Open world scope → (∀ stmt ∈ body, asked (.stmt stmt)) →
      logic.Relates world (ev.block scope body) (other.block scope body)
        (logic.Signals (StrayAmong body)) := by
  induction body with
  | nil => exact fun _ _ => .pure fun _ _ => .proceed
  | cons stmt rest ih =>
      intro world fresh known
      have first := known stmt List.mem_cons_self
      have admitted := fresh.admits (covers.known _ first)
      refine (covers.exec first admitted).bind fun after signal onward signals => ?_
      have ended : logic.Relates after (pure signal) (pure signal)
          (logic.Signals (StrayAmong (stmt :: rest))) :=
        .pure fun _ further => (signals.later further).mono fun jump strays =>
          ⟨stmt, List.mem_cons_self, strays⟩
      cases signal with
      | proceed =>
          have others := ih (fresh.later onward) fun other member =>
            known other (List.mem_cons_of_mem stmt member)
          refine others.mono fun _ _ signals => signals.mono ?_
          exact fun jump ⟨inner, member, strays⟩ =>
            ⟨inner, List.mem_cons_of_mem stmt member, strays⟩
      | _ => exact ended

theorem scopedBlock (covers : logic.Covers asked ev other) {body : List Stmt}
    (executes : logic.executes world scope) (known : ∀ stmt ∈ body, asked (.stmt stmt)) :
    logic.Relates world (ev.scopedBlock scope body) (other.scopedBlock scope body)
      (logic.Signals (StrayAmong body)) :=
  (Relates.newScope executes).bind fun _ _ _ fresh => covers.block body fresh known

/-! ## Parameters and bodies -/

theorem bindRemaining (covers : logic.Covers asked ev other) {function : String}
    (here : logic.place span) (params : List Param) (args : List Value) :
    (∀ param ∈ params, logic.binds param.name) →
    (∀ param ∈ params, ∀ default, param.form = .optional default → asked (.expr default)) →
    ∀ {world : Machine}, logic.Open world scope → logic.HeldItems world args →
      logic.Relates world (ev.bindRemaining function scope span params args)
        (other.bindRemaining function scope span params args) := by
  intro named known
  fun_induction Evaluator.bindRemaining ev function scope span params args with
  | case1 => exact fun _ _ => .done
  | case2 name count params args short =>
      intro world fresh held
      rw [Evaluator.bindRemaining, if_pos short]
      exact .fail here rfl
  | case3 name count params args enough taken ih =>
      intro world fresh held
      rw [Evaluator.bindRemaining, if_neg enough]
      have declares := fresh.declares name (named _ List.mem_cons_self)
      refine (Relates.newList (held.subset fun _ => List.mem_of_mem_take)).bind
        fun after rest onward restHeld => ?_
      refine (Relates.declare declares restHeld).andThen fun _ => ?_
      refine ih (fun param member => named param (List.mem_cons_of_mem _ member))
        (fun param member => known param (List.mem_cons_of_mem _ member)) (fresh.later onward) ?_
      exact (held.later onward).subset fun _ => List.mem_of_mem_drop
  | case4 name form params value args single ih =>
      intro world fresh held
      have declares := fresh.declares name (named _ List.mem_cons_self)
      have passes : logic.Relates world
          (do
            Run.bind scope name { value }
            ev.bindRemaining function scope span params args)
          (do
            Run.bind scope name { value }
            other.bindRemaining function scope span params args) := by
        refine (Relates.declare declares (held value List.mem_cons_self)).andThen fun _ => ?_
        refine ih (fun param member => named param (List.mem_cons_of_mem _ member))
          (fun param member => known param (List.mem_cons_of_mem _ member)) fresh ?_
        exact held.subset fun _ => List.mem_cons_of_mem value
      cases form with
      | required => exact passes
      | optional default => exact passes
      | rest count => exact absurd rfl (single count)
  | case5 name default params ih =>
      intro world fresh held
      have declares := fresh.declares name (named _ List.mem_cons_self)
      have defaultKnown := known _ List.mem_cons_self default rfl
      have inside := logic.evaluates_of_executes fresh.executes
      refine (covers.eval defaultKnown inside).bind fun after value onward valueHeld => ?_
      refine (Relates.declare declares valueHeld).andThen fun _ => ?_
      exact ih (fun param member => named param (List.mem_cons_of_mem _ member))
        (fun param member => known param (List.mem_cons_of_mem _ member)) (fresh.later onward) .nil
  | case6 name params => exact fun _ _ => .fail here rfl

section Bodies

variable (covers : logic.Covers asked ev other) {decl : FunctionDecl} {args : List Value}
  (here : logic.place span) (named : ∀ param ∈ decl.params, logic.binds param.name)
  (parts : ∀ part ∈ decl.parts, asked part)
include covers here named parts

theorem bindParameters (fresh : logic.Open world scope) (held : logic.HeldItems world args) :
    logic.Relates world (ev.bindParameters decl args scope span)
      (other.bindParameters decl args scope span) := by
  unfold Evaluator.bindParameters
  split
  · exact .fail here rfl
  · refine covers.bindRemaining here decl.params args named (fun param declared default form => ?_)
      fresh held
    refine parts _ (List.mem_append_left _ (List.mem_flatMap.mpr ⟨param, declared, ?_⟩))
    simp [form]

/-- The parameters are bound before the body runs, and a jump that leaves the body strays
in it. -/
theorem runBody (known : logic.known (.function decl)) {name : String}
    (fresh : logic.Open world scope) (held : logic.HeldItems world args) :
    logic.Relates world (ev.runBody name decl args scope span)
      (other.runBody name decl args scope span) logic.Held := by
  have bodyKnown : ∀ stmt ∈ decl.body, asked (.stmt stmt) := fun stmt member =>
    parts _ (List.mem_append_right _ (List.mem_map_of_mem member))
  refine (covers.bindParameters here named parts fresh held).andThen fun _ => ?_
  refine (covers.block decl.body fresh bodyKnown).bind fun after signal _ signals => ?_
  cases signal with
  | returned value => exact .value (signals.held value rfl)
  | proceed => exact .value (held_of_isCopied trivial)
  | broke => exact .halt (logic.ends_stray decl name .break known (signals.jumps .break rfl))
  | continued =>
      exact .halt (logic.ends_stray decl name .continue known (signals.jumps .continue rfl))

/-- A function gives what its body returns, or null. -/
theorem activate (known : logic.known (.function decl)) {name : String} {closure : FrameRef}
    {receiver : Option Value} (enters : logic.Enters world closure receiver)
    (inside : logic.Inside world closure)
    (receiverHeld : ∀ value ∈ receiver, logic.Held world value)
    (held : logic.HeldItems world args) :
    logic.Relates world (ev.activate name decl closure receiver args span)
      (other.activate name decl closure receiver args span) logic.Held := by
  rw [Evaluator.activate_eq, Evaluator.activate_eq]
  refine .andThen .note fun _ => ?_
  refine (Relates.enterCall enters inside receiverHeld).bind fun after scope onward fresh => ?_
  exact covers.runBody here named parts known fresh (held.later onward)

end Bodies

end Covers

/-! ## Calls -/

/-- The bodies of calls follow the inner logic. -/
structure Deepens (outer inner : Logic) : Prop where
  enters : ∀ {machine : Machine}, outer.leads machine machine →
    machine.callDepth < machine.settings.maxCallDepth → inner.leads machine.deeper machine.deeper
  leaves : ∀ {machine after : Machine}, outer.leads machine machine →
    inner.leads machine.deeper after →
    outer.leads machine { after with callDepth := after.callDepth - 1 }
  ends : ∀ halt, inner.ends halt → outer.ends halt
  abandons : ∀ halt, inner.abandons halt → outer.abandons halt
  tracks : outer.tracks ↔ inner.tracks
  known : ∀ node, outer.known node → inner.known node
  place : ∀ span, outer.place span → inner.place span
  binds : ∀ name, inner.binds name
  executes : ∀ {machine : Machine} {closure : FrameRef} {receiver : Option Value},
    inner.leads machine machine →
    inner.executes
      { machine with heap := (machine.heap.allocFrame (.ofCall closure receiver)).2 }
      (machine.heap.allocFrame (.ofCall closure receiver)).1

section Invoking

variable {asked : Code → Prop} {ev other : Evaluator} {scope : FrameRef} {callee : Value}
  {receiver : Option Value} {args : List Value}

/-- A built-in function runs at once, and calls back under the same logic. -/
theorem Covers.concludes_builtin (covers : logic.Covers asked ev other) (here : logic.place span)
    (valid : logic.leads machine machine) (builtin : callee.isBuiltin machine.heap = true)
    (held : logic.HeldItems machine args) :
    logic.Concludes machine logic.Held (ev.invoke callee receiver args scope span machine)
      (other.invoke callee receiver args scope span machine) := by
  cases callee with
  | function ref =>
      have stored := fun tracks => (logic.formed tracks valid).heap.functions ref
      rw [Evaluator.invoke_function, Evaluator.invoke_function]
      cases body : (machine.heap.function ref).body with
      | builtin function =>
          refine covers.runBuiltin here (fun method list same tracks => ?_) held machine valid
          have parts := stored tracks
          rwa [body, same] at parts
      | closure decl closure => simp [Value.isBuiltin, Function.isBuiltin, body] at builtin
  | _ => exact Relates.fail here rfl machine valid

namespace Deepens

variable {inner : Logic} {bodies : Code → Prop} (deepens : logic.Deepens inner)
  (deeper : inner.Covers bodies ev other)
  (stored : ∀ code, inner.known (.code code) → bodies code) (here : logic.place span)
include deepens

/-- What the inner logic says of the body of a call, the outer one says of the call. -/
theorem concludes_deeper {first second : Run Value} (here : logic.place span)
    (valid : logic.leads machine machine)
    (body : inner.Relates machine.deeper first second inner.Held) :
    logic.Concludes machine logic.Held (Run.deeper span first machine)
      (Run.deeper span second machine) := by
  unfold Run.deeper
  split
  · exact Relates.fail here rfl machine valid
  · rename_i below
    have entered := deepens.enters valid (Nat.lt_of_not_le below)
    apply Concludes.afterwards (body machine.deeper entered)
    · exact fun _ => deepens.leaves valid
    · exact fun _ _ held tracks => held (deepens.tracks.mp tracks)
    · exact deepens.ends
    · exact deepens.abandons

include deeper stored here

theorem activate {decl : FunctionDecl} (known : logic.known (.function decl)) {name : String}
    {closure : FrameRef} (inside : logic.Inside machine closure)
    (receiverHeld : ∀ value ∈ receiver, logic.Held machine value)
    (held : logic.HeldItems machine args) :
    inner.Relates machine.deeper (ev.activate name decl closure receiver args span)
      (other.activate name decl closure receiver args span) inner.Held := by
  have tracked := deepens.tracks.mpr
  have known := deepens.known _ known
  refine deeper.activate (deepens.place _ here) (fun _ _ => deepens.binds _)
    (fun part member => stored _ (known_body known member)) known ?_ ?_ ?_ ?_
  · exact fun _ onward => deepens.executes (inner.self onward)
  · exact fun tracks => inside (tracked tracks)
  · exact fun value member tracks => receiverHeld value member (tracked tracks)
  · exact fun item member tracks => held item member (tracked tracks)

/-- The body of a declared function runs one call deeper. -/
theorem concludes_declared (valid : logic.leads machine machine)
    (declared : callee.isBuiltin machine.heap = false)
    (receiverHeld : ∀ value ∈ receiver, logic.Held machine value)
    (held : logic.HeldItems machine args) :
    logic.Concludes machine logic.Held (ev.invoke callee receiver args scope span machine)
      (other.invoke callee receiver args scope span machine) := by
  cases callee with
  | function ref =>
      have formed := fun tracks => (logic.formed tracks valid).heap.functions ref
      rw [Evaluator.invoke_function, Evaluator.invoke_function]
      cases body : (machine.heap.function ref).body with
      | builtin function => simp [Value.isBuiltin, Function.isBuiltin, body] at declared
      | closure decl closure =>
          simp only [body] at formed ⊢
          have known := known_function valid body
          exact deepens.concludes_deeper here valid
            (deepens.activate deeper stored here known formed receiverHeld held)
  | _ => exact Relates.fail here rfl machine valid

end Deepens

/-- The call of a value, by a logic for what it calls back and one for the bodies of calls. -/
theorem Deepens.invoke {inner : Logic} {bodies : Code → Prop} (deepens : logic.Deepens inner)
    (covers : logic.Covers asked ev other) (deeper : inner.Covers bodies ev other)
    (stored : ∀ code, inner.known (.code code) → bodies code) (here : logic.place span)
    (receiverHeld : ∀ value ∈ receiver, logic.Held world value)
    (held : logic.HeldItems world args) :
    logic.Relates world (ev.invoke callee receiver args scope span)
      (other.invoke callee receiver args scope span) logic.Held := by
  intro machine onward
  have valid := logic.self onward
  cases kind : callee.isBuiltin machine.heap with
  | true => exact covers.concludes_builtin here valid kind (held.later onward)
  | false =>
      exact deepens.concludes_declared deeper stored here valid kind
        (fun value member => (receiverHeld value member).later onward) (held.later onward)

end Invoking

/-! ## Chains -/

/-- What a chain has come to is held, unless it broke off. -/
def HeldOption (logic : Logic) (machine : Machine) (reached : Option Value) : Prop :=
  ∀ value ∈ reached, logic.Held machine value

theorem heldOption_none : logic.HeldOption machine none := by
  rintro _ ⟨⟩

theorem held_linked {isOptional : Bool} {reached : Option Value} {target : Value}
    (held : logic.HeldOption machine reached)
    (next : Evaluator.linked isOptional reached = some target) : logic.Held machine target := by
  cases reached with
  | none => cases next
  | some value =>
      simp only [Evaluator.linked] at next
      split at next
      · cases next
      · cases next
        exact held target rfl

theorem held_callReceiver {target : Value} (held : logic.Held machine target) :
    logic.HeldOption machine (Evaluator.callReceiver target) := by
  cases target with
  | object ref =>
      rintro _ ⟨⟩
      exact held
  | _ => exact heldOption_none

/-- The callee and the receiver that comes with it are held, unless the chain broke off. -/
def HeldCallee (logic : Logic) (machine : Machine) (reached : Option (Value × Option Value)) :
    Prop :=
  ∀ callee ∈ reached, logic.Held machine callee.1 ∧ logic.HeldOption machine callee.2

theorem heldCallee_none : logic.HeldCallee machine none := by
  rintro _ ⟨⟩

/-- A callee that is no link of a chain comes with no receiver. -/
theorem Relates.withoutReceiver {first second : Run (Option Value)}
    (relates : logic.Relates world first second logic.HeldOption) :
    logic.Relates world (do return (← first).map (·, none)) (do return (← second).map (·, none))
      logic.HeldCallee := by
  refine relates.bind fun _ reached _ held => .pure fun _ onward callee same => ?_
  rcases Option.map_eq_some_iff.mp same with ⟨value, isValue, rfl⟩
  exact ⟨(held value isValue).later onward, heldOption_none⟩

theorem Relates.someValue {first second : Run Value}
    (relates : logic.Relates world first second logic.Held) :
    logic.Relates world (do return some (← first)) (do return some (← second))
      logic.HeldOption := by
  refine relates.bind fun _ _ _ held => .pure fun _ onward value same => ?_
  cases same
  exact held.later onward

namespace Covers

variable {asked : Code → Prop} {ev other : Evaluator} {scope : FrameRef}

theorem callLink (covers : logic.Covers asked ev other) (here : logic.place span)
    (inside : logic.evaluates world scope) {function : Value} {receiver : Option Value}
    {args : List Expr} {isOptional : Bool} (functionHeld : logic.Held world function)
    (receiverHeld : logic.HeldOption world receiver) (known : ∀ arg ∈ args, asked (.expr arg)) :
    logic.Relates world (ev.callLink scope function receiver args isOptional span)
      (other.callLink scope function receiver args isOptional span) logic.HeldOption := by
  unfold Evaluator.callLink
  split
  · exact .pure fun _ _ => heldOption_none
  · refine (covers.arguments inside known).bind fun after values onward held => .someValue ?_
    exact covers.call here (functionHeld.later onward)
      (fun value member => (receiverHeld value member).later onward) held

/-- What is shown of callees holds of chains. -/
theorem chain_of_callee {expr : Expr}
    (relates : logic.Relates world (ev.callee scope expr) (other.callee scope expr)
      logic.HeldCallee) :
    logic.Relates world (ev.chain scope expr) (other.chain scope expr) logic.HeldOption := by
  rw [Evaluator.chain_eq_callee, Evaluator.chain_eq_callee, map_eq_pure_bind, map_eq_pure_bind]
  refine relates.bind fun _ reached _ held => .pure fun _ onward value same => ?_
  rcases Option.map_eq_some_iff.mp same with ⟨callee, isCallee, rfl⟩
  exact (held callee isCallee).1.later onward

/-- The links of a chain are followed without asking; the head of the chain, the indices
and the arguments are asked for. -/
theorem callee (covers : logic.Covers asked ev other) (expr : Expr) :
    ∀ {world : Machine}, logic.evaluates world scope → logic.known (.code (.expr expr)) →
      (∀ part ∈ expr.node.parts, asked part) → (expr.links = [] → asked (.expr expr)) →
      logic.Relates world (ev.callee scope expr) (other.callee scope expr) logic.HeldCallee := by
  have inner : ∀ {expr : Expr}, asked (.expr expr) →
      logic.known (.code (.expr expr)) ∧ ∀ part ∈ expr.node.parts, asked part :=
    fun known => ⟨covers.known _ known, fun part => covers.parts _ part known⟩
  induction expr using Expr.chain_induction with
  | member object property isOptional span ih =>
      intro world inside known parts _
      have objectAsked := parts _ List.mem_cons_self
      have here := logic.known_place _ known
      have chained := chain_of_callee (ih inside (inner objectAsked).1 (inner objectAsked).2
        fun _ => objectAsked)
      rw [Evaluator.callee, Evaluator.callee]
      refine chained.bind fun after reached onward held => ?_
      cases next : Evaluator.linked isOptional reached with
      | none => exact .pure fun _ _ => heldCallee_none
      | some target =>
          have targetHeld := held_linked held next
          refine (covers.readMember here targetHeld).bind fun _ _ further functionHeld => ?_
          refine .pure fun _ later callee same => ?_
          cases same
          exact ⟨functionHeld.later later,
            held_callReceiver (targetHeld.later (logic.trans further later))⟩
  | index object position isOptional span ih =>
      intro world inside known parts _
      have objectAsked := parts _ List.mem_cons_self
      have positionAsked := parts _ (List.mem_cons_of_mem _ List.mem_cons_self)
      have here := logic.known_place _ known
      have chained := chain_of_callee (ih inside (inner objectAsked).1 (inner objectAsked).2
        fun _ => objectAsked)
      rw [Evaluator.callee, Evaluator.callee]
      refine chained.bind fun middle reached onward held => ?_
      cases next : Evaluator.linked isOptional reached with
      | none => exact .pure fun _ _ => heldCallee_none
      | some target =>
          have inside := logic.evaluates_later onward inside
          refine (covers.eval positionAsked inside).bind fun after _ beyond _ => ?_
          have targetHeld := (held_linked held next).later beyond
          refine (covers.readIndex here targetHeld).bind fun _ _ further functionHeld => ?_
          refine .pure fun _ later callee same => ?_
          cases same
          exact ⟨functionHeld.later later,
            held_callReceiver (targetHeld.later (logic.trans further later))⟩
  | call callee arguments isOptional span ih =>
      intro world inside known parts _
      have calleeAsked := parts _ List.mem_cons_self
      have here := logic.known_place _ known
      rw [Evaluator.callee_call, Evaluator.callee_call, Evaluator.chain_call, Evaluator.chain_call]
      apply Relates.withoutReceiver
      refine (ih inside (inner calleeAsked).1 (inner calleeAsked).2 fun _ => calleeAsked).bind
        fun after reached onward held => ?_
      rcases reached with _ | ⟨function, receiver⟩
      · exact .pure fun _ _ => heldOption_none
      · have callee := held _ rfl
        refine covers.callLink here (logic.evaluates_later onward inside) callee.1 callee.2 ?_
        exact fun arg member => parts _ (List.mem_cons_of_mem _ (List.mem_map_of_mem member))
  | head expr single =>
      intro world inside _ _ self
      rw [Evaluator.callee_of_links_eq_nil single, Evaluator.callee_of_links_eq_nil single]
      exact .withoutReceiver (.someValue (covers.eval (self single) inside))

/-! ## Expressions -/

theorem expression (covers : logic.Covers asked ev other) {expr : Expr}
    (inside : logic.evaluates world scope) (known : logic.known (.code (.expr expr)))
    (parts : ∀ part ∈ expr.node.parts, asked part)
    (stored : expr.node.isConstruct = true → ∀ code, logic.known (.code code) → asked code) :
    logic.Relates world (ev.expression expr scope) (other.expression expr scope) logic.Held := by
  have here := logic.known_place _ known
  rcases expr with ⟨node, span⟩
  unfold Evaluator.expression
  have chained : (Expr.mk node span).links ≠ [] → logic.Relates world
      (do return (← ev.chain scope ⟨node, span⟩).getD .null)
      (do return (← other.chain scope ⟨node, span⟩).getD .null) logic.Held := by
    intro isLink
    have callee := covers.callee ⟨node, span⟩ inside known parts fun single => absurd single isLink
    refine (chain_of_callee callee).bind fun _ reached _ held => .value ?_
    cases reached with
    | none => exact held_of_isCopied trivial
    | some value => exact held value rfl
  cases node with
  | number x | text s | bool b | null => exact .value (held_of_isCopied trivial)
  | template pieces holes =>
      refine (covers.template inside pieces holes fun hole member => ?_).andThen
        fun _ => .value (held_of_isCopied trivial)
      exact parts _ (List.mem_map_of_mem member)
  | list items =>
      exact covers.listLiteral inside fun item member => parts _ (List.mem_map_of_mem member)
  | object members =>
      refine covers.objectLiteral inside fun entry member part inEntry => parts part ?_
      exact List.mem_flatMap.mpr ⟨entry, member, inEntry⟩
  | function decl =>
      exact .newClosure (logic.known_parts _ _ known List.mem_cons_self)
        (logic.inside_of_evaluates · inside)
  | name name => exact (Relates.lookup here).mono fun _ _ found => found.1
  | receiver => exact .receiver here
  | unary op operand => exact covers.unary inside (parts _ List.mem_cons_self)
  | binary op left right =>
      exact covers.binary inside here (parts _ List.mem_cons_self)
        (parts _ (List.mem_cons_of_mem _ List.mem_cons_self))
  | update op target value =>
      have targetAsked := parts _ List.mem_cons_self
      refine covers.update inside here (covers.here targetAsked) (fun name isName => ?_)
        (fun part => covers.parts _ part targetAsked) fun expr given => ?_
      · rcases target with ⟨targetNode, targetSpan⟩
        subst isName
        exact logic.known_assigns _ name known rfl
      · exact parts _ (List.mem_cons_of_mem _ (List.mem_map_of_mem (Option.mem_toList.mpr given)))
  | conditional condition thenBranch elseBranch =>
      refine (covers.holds inside (parts _ List.mem_cons_self)).andThen fun decided => ?_
      cases decided with
      | true => exact covers.eval (parts (.expr thenBranch) (by simp [ExprNode.parts])) inside
      | false => exact covers.eval (parts (.expr elseBranch) (by simp [ExprNode.parts])) inside
  | spread source => exact .fail here rfl
  | call callee arguments isOptional => exact chained (List.cons_ne_nil _ _)
  | member container property isOptional => exact chained (List.cons_ne_nil _ _)
  | index container position isOptional => exact chained (List.cons_ne_nil _ _)
  | construct cls arguments =>
      have clsAsked := parts _ List.mem_cons_self
      refine (covers.eval clsAsked inside).bind fun after value onward held => ?_
      cases value with
      | «class» ref =>
          have inside := logic.evaluates_later onward inside
          refine covers.constructFrom here inside ?_ held (stored rfl)
          exact fun arg member => parts _ (List.mem_cons_of_mem _ (List.mem_map_of_mem member))
      | _ => exact .fail (covers.here clsAsked) rfl
  | superConstructor arguments =>
      exact covers.superConstructor here inside fun arg member =>
        parts _ (List.mem_map_of_mem member)
  | superMethod method arguments =>
      exact covers.superMethod here inside fun arg member => parts _ (List.mem_map_of_mem member)
  | delete target arguments =>
      refine (covers.eval (parts _ List.mem_cons_self) inside).bind fun middle _ onward held => ?_
      have inside := logic.evaluates_later onward inside
      refine (covers.arguments inside fun arg member => ?_).bind fun _ _ further argsHeld => ?_
      · exact parts _ (List.mem_cons_of_mem _ (List.mem_map_of_mem member))
      · exact covers.delete here (logic.known_clears _ _ _ known) (held.later further) argsHeld

end Covers

end Logic

end Hati
