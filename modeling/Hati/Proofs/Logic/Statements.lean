import Hati.Proofs.Logic.Calls

namespace Hati

/-!
# Statements

A branch and a pass of a loop run in scopes inside the one of their statement.  Only a
statement that declares names itself reaches the scope that it is executed in.  A loop ends
with no jump: what its body jumps by, the loop takes as its own.  With the rules of
statements all rules are covered.
-/

namespace StmtNode

/-- A loop that goes on for as long as a condition holds. -/
def isUnbounded : StmtNode → Bool
  | .for .. | .while .. | .doWhile .. => true
  | _ => false

end StmtNode

namespace Evaluator

/-- The evaluator that applies the rules once and goes on with `ev`. -/
def next (ev : Evaluator) (fuel : Nat) : Evaluator where
  fuel := fuel
  eval := ev.expression
  exec := ev.statement
  call := ev.invoke

end Evaluator

namespace Logic

variable {logic : Logic} {world machine after : Machine} {span : Span}

/-! ## Laps -/

/-- A lap goes on, or ends its loop with what is held and with no jump. -/
def Laps (logic : Logic) (machine : Machine) : Lap → Prop
  | .again => True
  | .done signal => logic.Signals (fun _ => False) machine signal

theorem Signals.lap {jumps : Jump → Prop} {signal : Signal}
    (signals : logic.Signals jumps machine signal) : logic.Laps machine signal.lap := by
  cases signal with
  | proceed => trivial
  | continued => trivial
  | broke => exact .proceed
  | returned value => exact .returned (signals.held value rfl)

theorem Laps.later {lap : Lap} (laps : logic.Laps machine lap)
    (onward : logic.leads machine after) : logic.Laps after lap := by
  cases lap with
  | again => trivial
  | done signal => exact Signals.later laps onward

/-- How many laps a loop may take in the two runs: the same number if both may run out of
fuel, and no fewer in the second run if the first is abandoned then. -/
def AllowsLaps (logic : Logic) (fuel enough : Nat) : Prop :=
  logic.ends .exhausted ∧ fuel = enough ∨ logic.abandons .exhausted ∧ fuel ≤ enough

theorem Relates.repeatLaps {pass same : Run Lap} :
    ∀ {world : Machine} (fuel enough : Nat), logic.AllowsLaps fuel enough →
      logic.Relates world pass same logic.Laps →
      logic.Relates world (Run.repeatLaps pass fuel) (Run.repeatLaps same enough)
        (logic.Signals fun _ => False)
  | _, 0, enough, .inl ⟨exhausts, equal⟩, _ => by
      subst equal
      exact .exhausted exhausts
  | _, 0, _, .inr ⟨abandons, _⟩, _ => .abandoned abandons
  | _, fuel + 1, enough, allowed, relates => by
      obtain ⟨enough, rfl⟩ : ∃ less, enough = less + 1 := by
        rcases allowed with ⟨-, equal⟩ | ⟨-, most⟩
        · exact ⟨fuel, equal.symm⟩
        · exact ⟨enough - 1, by omega⟩
      refine relates.bind fun after lap onward laps => ?_
      cases lap with
      | again =>
          refine repeatLaps fuel enough (allowed.imp ?_ ?_) (relates.later onward)
          · exact fun fixed => ⟨fixed.1, Nat.succ.inj fixed.2⟩
          · exact fun bounded => ⟨bounded.1, Nat.le_of_succ_le_succ bounded.2⟩
      | done signal => exact .pure fun _ further => Signals.later laps further

/-- A run that ends with no jump ends as any statement may. -/
theorem Relates.withoutJump {jumps : Jump → Prop} {first second : Run Signal}
    (relates : logic.Relates world first second (logic.Signals fun _ => False)) :
    logic.Relates world first second (logic.Signals jumps) :=
  relates.mono fun _ _ signals => signals.mono fun _ => False.elim

/-! ## Patterns -/

theorem Relates.bindSlots {scope : FrameRef} {isConstant : Bool} (slots : List ListSlot) :
    ∀ {world : Machine} (items : List Value),
      (∀ name ∈ slots.filterMap ListSlot.boundName?, logic.declares scope name) →
      logic.HeldItems world items →
      logic.Relates world (Run.bindSlots scope isConstant slots items)
        (Run.bindSlots scope isConstant slots items) := by
  induction slots with
  | nil => exact fun _ _ _ => .done
  | cons slot slots ih =>
      intro world items declares held
      have tail := held.subset fun _ => List.mem_of_mem_tail
      cases slot with
      | hole => exact ih items.tail declares tail
      | bind name =>
          refine (Relates.declare (declares name List.mem_cons_self) held.headD).andThen fun _ => ?_
          have others := fun other member => declares other (List.mem_cons_of_mem name member)
          exact ih items.tail others tail
      | rest name =>
          refine (Relates.newList held).bind fun after rest onward restHeld => ?_
          refine (Relates.declare (declares name List.mem_cons_self) restHeld).andThen fun _ => ?_
          have others := fun other member => declares other (List.mem_cons_of_mem name member)
          exact ih items.tail others (tail.later onward)

namespace Covers

variable {asked : Code → Prop} {ev other : Evaluator} {scope : FrameRef}

section Patterns

variable (covers : logic.Covers asked ev other) (here : logic.place span) {isConstant : Bool}
include covers here

theorem bindFields {ref : ObjectRef} (held : logic.Held world (.object ref))
    (fields : List (String × String)) :
    (∀ name ∈ fields.map Prod.snd, logic.declares scope name) →
      logic.Relates world (ev.bindFields scope isConstant ref span fields)
        (other.bindFields scope isConstant ref span fields) := by
  induction fields with
  | nil => exact fun _ => .done
  | cons field fields ih =>
      intro declares
      refine .bind (covers.readProperty here held) fun after value onward valueHeld => ?_
      refine (Relates.declare (declares field.2 List.mem_cons_self) valueHeld).andThen fun _ => ?_
      exact (ih fun name member => declares name (List.mem_cons_of_mem field.2 member)).later onward

theorem bindPattern {pattern : Pattern} {value : Value}
    (declares : ∀ name ∈ pattern.boundNames, logic.declares scope name)
    (held : logic.Held world value) :
    logic.Relates world (ev.bindPattern pattern value isConstant scope span)
      (other.bindPattern pattern value isConstant scope span) := by
  unfold Evaluator.bindPattern
  cases defect : pattern.defect? with
  | some cause =>
      refine .fail here ?_
      unfold Pattern.defect? at defect
      split at defect
      · cases defect
        rfl
      · split at defect
        · split at defect
          · cases defect
            rfl
          · cases defect
        · cases defect
  | none =>
      dsimp only
      split
      · exact .declare (declares _ List.mem_cons_self) held
      · refine Relates.items.bind fun _ items _ itemsHeld => ?_
        exact .bindSlots _ _ declares itemsHeld
      · exact .fail here rfl
      · exact covers.bindFields here held _ declares
      · exact .fail here rfl

end Patterns

/-! ## Loops -/

section Loops

variable (covers : logic.Covers asked ev other) {body : List Stmt}
  (known : ∀ stmt ∈ body, asked (.stmt stmt))
include covers known

/-- The body of a counting loop, and the step that follows it unless it ends the loop. -/
theorem forLapEntered {post : Option Stmt} (fresh : logic.Open world scope)
    (postKnown : ∀ stmt ∈ post, asked (.stmt stmt)) :
    logic.Relates world
      (do
        match (← ev.scopedBlock scope body).lap with
        | .done signal => pure (.done signal)
        | .again =>
          if let some post := post then
            let _ ← ev.exec post scope
          pure .again : Run Lap)
      (do
        match (← other.scopedBlock scope body).lap with
        | .done signal => pure (.done signal)
        | .again =>
          if let some post := post then
            let _ ← other.exec post scope
          pure .again : Run Lap) logic.Laps := by
  refine (covers.scopedBlock fresh.executes known).bind fun after signal onward signals => ?_
  have again : logic.Relates after (pure .again) (pure .again) logic.Laps :=
    .pure fun _ _ => trivial
  cases ended : signal.lap with
  | done last => exact .pure fun _ further => Laps.later (ended ▸ signals.lap) further
  | again =>
      cases post with
      | none => exact again
      | some post =>
          have postAsked := postKnown post rfl
          have admitted := (fresh.later onward).admits (covers.known _ postAsked)
          exact (covers.exec postAsked admitted).andThen fun _ => again

theorem forLap {condition : Option Expr} {post : Option Stmt} (fresh : logic.Open world scope)
    (conditionKnown : ∀ expr ∈ condition, asked (.expr expr))
    (postKnown : ∀ stmt ∈ post, asked (.stmt stmt)) :
    logic.Relates world (ev.forLap scope condition post body)
      (other.forLap scope condition post body) logic.Laps := by
  have entered := covers.forLapEntered known fresh postKnown
  cases condition with
  | none => exact entered
  | some condition =>
      have inside := logic.evaluates_of_executes fresh.executes
      refine (covers.holds inside (conditionKnown condition rfl)).andThen fun goesOn => ?_
      cases goesOn with
      | true => exact entered
      | false => exact .pure fun _ _ => .proceed

theorem whileLap {condition : Expr} (executes : logic.executes world scope)
    (conditionKnown : asked (.expr condition)) :
    logic.Relates world (ev.whileLap scope condition body) (other.whileLap scope condition body)
      logic.Laps := by
  have inside := logic.evaluates_of_executes executes
  refine (covers.holds inside conditionKnown).andThen fun goesOn => ?_
  cases goesOn with
  | true =>
      refine (covers.scopedBlock executes known).bind fun _ _ _ signals => .pure fun _ onward => ?_
      exact (signals.later onward).lap
  | false => exact .pure fun _ _ => .proceed

theorem doWhileLap {condition : Expr} (executes : logic.executes world scope)
    (conditionKnown : asked (.expr condition)) :
    logic.Relates world (ev.doWhileLap scope body condition)
      (other.doWhileLap scope body condition) logic.Laps := by
  refine (Relates.newScope executes).bind fun middle inner _ fresh => ?_
  refine (covers.block body fresh known).bind fun after signal onward signals => ?_
  have inside := logic.evaluates_of_executes (fresh.later onward).executes
  cases ended : signal.lap with
  | done last => exact .pure fun _ further => Laps.later (ended ▸ signals.lap) further
  | again =>
      refine (covers.holds inside conditionKnown).andThen fun goesOn => ?_
      cases goesOn with
      | true => exact .pure fun _ _ => trivial
      | false => exact .pure fun _ _ => .proceed

end Loops

/-! ## Iteration -/

/-- The two values that a pass of an iteration binds are held. -/
def HeldPairs (logic : Logic) (machine : Machine) (pairs : List (Value × Value)) : Prop :=
  ∀ pair ∈ pairs, logic.Held machine pair.1 ∧ logic.Held machine pair.2

/-- The elements of a list, each with its position. -/
theorem heldPairs_numbered {items : List Value} (held : logic.HeldItems world items) :
    HeldPairs logic world
      (items.zipIdx.map fun (item, position) => (item, Value.ofNat position)) := by
  intro pair member
  rcases List.mem_map.mp member with ⟨element, numbered, rfl⟩
  have item := held element.1 (List.mem_zipIdx' numbered |>.2 ▸ List.getElem_mem _)
  exact ⟨item, held_of_isCopied trivial⟩

theorem iterationPairs (covers : logic.Covers asked ev other) {source : Value}
    (here : logic.place span) (held : logic.Held world source) :
    logic.Relates world (ev.iterationPairs source scope span)
      (other.iterationPairs source scope span) (HeldPairs logic) := by
  unfold Evaluator.iterationPairs
  dsimp only
  split
  · exact Relates.items.bind fun _ _ _ itemsHeld => .pure fun _ onward =>
      heldPairs_numbered (itemsHeld.later onward)
  · exact .pure fun _ _ => heldPairs_numbered (heldItems_characters _)
  · refine .readThen fun machine onward => ?_
    refine (covers.readProperties here (held.later onward)).bind fun _ entries _ values => ?_
    refine .pure fun _ further pair member => ?_
    rcases List.mem_map.mp member with ⟨entry, inEntries, rfl⟩
    exact ⟨held_of_isCopied trivial, (values entry inEntries).later further⟩
  · exact .fail here rfl

theorem iterate (covers : logic.Covers asked ev other) {first : String} {second : Option String}
    {body : List Stmt} (known : ∀ stmt ∈ body, asked (.stmt stmt))
    (named : ∀ name ∈ first :: second.toList, logic.binds name) (pairs : List (Value × Value)) :
    ∀ {world : Machine}, logic.executes world scope → HeldPairs logic world pairs →
      logic.Relates world (ev.iterate scope first second body pairs)
        (other.iterate scope first second body pairs) (logic.Signals fun _ => False) := by
  induction pairs with
  | nil => exact fun _ _ => .pure fun _ _ => .proceed
  | cons pair pairs ih =>
      intro world executes held
      rcases pair with ⟨firstValue, secondValue⟩
      have ⟨firstHeld, secondHeld⟩ := held _ List.mem_cons_self
      refine (Relates.newScope executes).bind fun middle inner onward fresh => ?_
      have declares := fun name member => fresh.declares name (named name member)
      have pass : logic.Relates middle
          (do
            match (← ev.block inner body).lap with
            | .again => ev.iterate scope first second body pairs
            | .done signal => pure signal)
          (do
            match (← other.block inner body).lap with
            | .again => other.iterate scope first second body pairs
            | .done signal => pure signal) (logic.Signals fun _ => False) := by
        refine (covers.block body fresh known).bind fun after signal further signals => ?_
        have led := logic.trans onward further
        cases ended : signal.lap with
        | done last =>
            have laps : logic.Laps after (.done last) := ended ▸ signals.lap
            exact .pure fun _ later => laps.later later
        | again =>
            refine ih (logic.executes_later led executes) fun pair member => ?_
            have ⟨left, right⟩ := held pair (List.mem_cons_of_mem _ member)
            exact ⟨left.later led, right.later led⟩
      refine (Relates.declare (declares first List.mem_cons_self) (firstHeld.later onward)).andThen
        fun _ => ?_
      cases second with
      | none => exact pass
      | some second =>
          have declares := declares second (List.mem_cons_of_mem first List.mem_cons_self)
          exact (Relates.declare declares (secondHeld.later onward)).andThen fun _ => pass

/-! ## Statements -/

theorem assign (covers : logic.Covers asked ev other) {target value : Expr}
    (here : logic.place span) (inside : logic.evaluates world scope)
    (assigns : ∀ name, target.node = .name name → logic.assigns name)
    (settles : ∀ name, target.node = .name name → logic.Settles world scope name)
    (targetKnown : asked (.expr target)) (known : asked (.expr value)) :
    logic.Relates world (ev.assign target value scope span)
      (other.assign target value scope span) := by
  have targetHere := covers.here targetKnown
  have parts := (covers.parts _ · targetKnown)
  rcases target with ⟨node, targetSpan⟩
  cases node with
  | name name =>
      refine (covers.eval known inside).bind fun _ _ onward held => ?_
      exact .assign here (assigns name rfl) ((settles name rfl).later onward) held
  | index object index isOptional =>
      refine (covers.eval (parts _ List.mem_cons_self) inside).andThen fun _ => ?_
      have positionKnown := parts _ (List.mem_cons_of_mem _ List.mem_cons_self)
      refine (covers.eval positionKnown inside).andThen fun _ => ?_
      exact (covers.eval known inside).bind fun _ _ _ held => .writeIndex here held
  | member object property isOptional =>
      refine (covers.eval (parts _ List.mem_cons_self) inside).andThen fun _ => ?_
      exact (covers.eval known inside).bind fun _ _ _ held => .writeMember here rfl held
  | _ => exact .fail targetHere rfl

theorem evalOption (covers : logic.Covers asked ev other) {value : Option Expr}
    (inside : logic.evaluates world scope)
    (known : ∀ part ∈ value.toList.map Code.expr, asked part) :
    logic.Relates world (ev.evalOption scope value) (other.evalOption scope value) logic.Held := by
  cases value with
  | none => exact .value (held_of_isCopied trivial)
  | some value => exact covers.eval (known _ List.mem_cons_self) inside

/-- A statement that ends with no signal of its own. -/
theorem proceeds {jumps : Jump → Prop} {first second : Run Unit}
    (relates : logic.Relates world first second) :
    logic.Relates world (do first; pure .proceed) (do second; pure .proceed)
      (logic.Signals jumps) :=
  relates.andThen fun _ => .pure fun _ _ => .proceed

theorem statement (covers : logic.Covers asked ev other) {stmt : Stmt}
    (known : logic.known (.code (.stmt stmt))) (parts : ∀ part ∈ stmt.node.parts, asked part)
    (admitted : logic.Admits world stmt scope)
    (laps : stmt.node.isUnbounded = true → logic.AllowsLaps ev.fuel other.fuel) :
    logic.Relates world (ev.statement stmt scope) (other.statement stmt scope)
      (logic.Signals fun jump => stmt.Strays jump) := by
  have here := logic.known_place _ known
  rcases stmt with ⟨node, span⟩
  rcases admitted with ⟨executes, declares⟩
  have inside := logic.evaluates_of_executes executes
  unfold Evaluator.statement
  cases node with
  | expression expr =>
      refine (covers.eval (parts _ List.mem_cons_self) inside).andThen fun _ => ?_
      exact .pure fun _ _ => .proceed
  | print values newline =>
      have texts := fun value member =>
        covers.evalText inside (parts (.expr value) (List.mem_map_of_mem member))
      refine (Relates.mapM (fun _ _ _ _ _ => trivial) texts).andThen fun _ => ?_
      exact proceeds (.write here)
  | declare target value isConstant =>
      have bound : logic.Relates world
          (do
            let value ← ev.evalOption scope value
            ev.bindPattern target value isConstant scope span
            pure Signal.proceed)
          (do
            let value ← other.evalOption scope value
            other.bindPattern target value isConstant scope span
            pure Signal.proceed)
          (logic.Signals fun jump => Stmt.Strays jump ⟨.declare target value isConstant, span⟩) :=
        (covers.evalOption inside parts).bind fun _ _ _ held =>
          proceeds (covers.bindPattern here declares held)
      dsimp only
      split
      · have failed : logic.Relates world (Run.fail .constantWithoutValue span : Run Unit)
            (Run.fail .constantWithoutValue span) := .fail here rfl
        exact failed.andThen fun _ => bound
      · exact bound
  | assign target value =>
      have targetKnown := parts _ List.mem_cons_self
      have valueKnown := parts _ (List.mem_cons_of_mem _ List.mem_cons_self)
      refine proceeds (covers.assign here inside (fun name isName => ?_) (fun name isName => ?_)
        targetKnown valueKnown)
      · rcases target with ⟨targetNode, targetSpan⟩
        subst isName
        exact logic.known_assigns _ name known rfl
      · rcases target with ⟨targetNode, targetSpan⟩
        subst isName
        exact declares
  | function decl =>
      dsimp only
      split
      · exact .fail here rfl
      · rename_i name named
        have closure := logic.known_parts _ _ known List.mem_cons_self
        refine (Relates.newClosure closure (logic.inside_of_evaluates · inside)).bind
          fun _ function _ held => ?_
        exact proceeds (.declare (declares name named) held)
  | «class» decl =>
      have nodes : ∀ node ∈ decl.nodes, logic.known node :=
        fun node member => logic.known_parts _ _ known member
      have inside := fun tracks => logic.inside_of_evaluates tracks inside
      exact proceeds (covers.declareClass here inside declares parts nodes)
  | «return» value =>
      refine (covers.evalOption inside parts).bind fun _ _ _ held => .pure fun _ onward => ?_
      exact .returned (held.later onward)
  | block body =>
      have ended := covers.scopedBlock executes fun stmt member =>
        parts _ (List.mem_map_of_mem member)
      exact ended.mono fun _ _ signals => signals.mono fun jump ⟨_, member, strays⟩ =>
        .block member strays
  | «if» condition thenBranch elseBranch =>
      have conditionKnown := parts (.expr condition) (by simp [StmtNode.parts])
      refine (covers.holds inside conditionKnown).andThen fun decided => ?_
      cases decided with
      | true =>
          have asks : ∀ stmt ∈ thenBranch, asked (.stmt stmt) := fun stmt member =>
            parts (.stmt stmt) (by simp [StmtNode.parts, member])
          have ended := covers.scopedBlock executes asks
          exact ended.mono fun _ _ signals => signals.mono fun jump ⟨_, member, strays⟩ =>
            .thenBranch member strays
      | false =>
          cases elseBranch with
          | none => exact .pure fun _ _ => .proceed
          | some body =>
              have asks : ∀ stmt ∈ body, asked (.stmt stmt) := fun stmt member =>
                parts (.stmt stmt) (by simp [StmtNode.parts, member])
              have ended := covers.scopedBlock executes asks
              exact ended.mono fun _ _ signals => signals.mono fun jump ⟨_, member, strays⟩ =>
                .elseBranch member strays
  | «for» init condition post body =>
      refine (Relates.newScope executes).bind fun after inner _ fresh => ?_
      have pass : logic.Relates after (ev.forLap inner condition post body)
          (other.forLap inner condition post body) logic.Laps := by
        refine covers.forLap (fun stmt member => ?_) fresh (fun expr given => ?_)
          fun stmt given => ?_
        · exact parts _ (by simp [StmtNode.parts, member])
        · exact parts _ (by simp [StmtNode.parts, Option.mem_def.mp given])
        · exact parts _ (by simp [StmtNode.parts, Option.mem_def.mp given])
      have looped := Relates.repeatLaps _ _ (laps rfl) pass
      cases init with
      | none => exact looped.withoutJump
      | some init =>
          have initKnown := parts (.stmt init) (by simp [StmtNode.parts])
          have admitted := fresh.admits (covers.known _ initKnown)
          exact (covers.exec initKnown admitted).andThen fun _ => looped.withoutJump
  | forIn first second iterable body =>
      have iterableKnown := parts _ List.mem_cons_self
      refine (covers.eval iterableKnown inside).bind fun middle source onward held => ?_
      have iterableHere := covers.here iterableKnown
      refine .bind (covers.iterationPairs iterableHere held) fun after pairs further pairsHeld => ?_
      have executes := logic.executes_later (logic.trans onward further) executes
      apply Relates.withoutJump
      refine covers.iterate (fun stmt member => ?_) (fun name member => ?_) pairs executes pairsHeld
      · exact parts _ (List.mem_cons_of_mem _ (List.mem_map_of_mem member))
      · exact logic.known_binds _ name known member
  | «while» condition body =>
      apply Relates.withoutJump
      refine .repeatLaps _ _ (laps rfl) ?_
      refine covers.whileLap (fun stmt member => ?_) executes (parts _ List.mem_cons_self)
      exact parts _ (List.mem_cons_of_mem _ (List.mem_map_of_mem member))
  | doWhile body condition =>
      apply Relates.withoutJump
      refine .repeatLaps _ _ (laps rfl) ?_
      refine covers.doWhileLap (fun stmt member => ?_) executes (parts _ List.mem_cons_self)
      exact parts _ (List.mem_cons_of_mem _ (List.mem_map_of_mem member))
  | «break» => exact .pure fun _ _ => .broke (.break span)
  | «continue» => exact .pure fun _ _ => .continued (.continue span)

end Covers

/-! ## All rules -/

/-- Evaluators that are out of fuel do the same. -/
theorem covers_exhausted (exhausts : logic.ends .exhausted) :
    logic.Covers (fun code => logic.known (.code code)) .exhausted .exhausted where
  eval _ _ := .exhausted exhausts
  exec _ _ := .exhausted exhausts
  call _ _ _ _ := .exhausted exhausts
  known _ known := known
  parts _ _ := known_code

/-- One more level of rules is covered if all that the rules ask for is. -/
theorem Covers.next {inner : Logic} {asked : Code → Prop} {ev other : Evaluator}
    (covers : logic.Covers (fun code => logic.known (.code code)) ev other)
    (deepens : logic.Deepens inner) (deeper : inner.Covers asked ev other)
    (stored : ∀ code, inner.known (.code code) → asked code)
    (laps : logic.AllowsLaps ev.fuel other.fuel) (fuel enough : Nat) :
    logic.Covers (fun code => logic.known (.code code)) (ev.next fuel) (other.next enough) where
  eval known inside :=
    covers.expression inside known (fun _ => known_code known) fun _ _ known => known
  exec known admitted := covers.statement known (fun _ => known_code known) admitted fun _ => laps
  call here _ receiverHeld held := deepens.invoke covers deeper stored here receiverHeld held
  known _ known := known
  parts _ _ := known_code

/-- A logic that lets fuel run out, and holds inside calls as well, covers all evaluation. -/
theorem covers_ofFuel (exhausts : logic.ends .exhausted) (deepens : logic.Deepens logic) :
    ∀ fuel, logic.Covers (fun code => logic.known (.code code)) (.ofFuel fuel) (.ofFuel fuel)
  | 0 => covers_exhausted exhausts
  | fuel + 1 => by
      have covers := covers_ofFuel exhausts deepens fuel
      exact covers.next deepens covers (fun _ known => known) (.inl ⟨exhausts, rfl⟩) fuel fuel

end Logic

end Hati
