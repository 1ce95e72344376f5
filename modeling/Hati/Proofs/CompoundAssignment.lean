import Hati.Proofs.Rationing
import Hati.Proofs.Targets

namespace Hati

/-!
# Compound assignment is assignment

An update reads its target, evaluates its operand, combines the two and stores the result.
Written out, it is an assignment whose value is an operator expression with the target on its
left: `t += e` stands for `t = t + e`, and `t++` for `t = t + 1`.

The two are not the same rule.  The assignment evaluates the parts of the target twice, it goes
through the operators of expressions, which convert more than an update does, and it is nested
more deeply and so needs more fuel.  Nevertheless an update that succeeds is an assignment that
succeeds, with the same value and the same state, as long as evaluating the parts of the target
changes nothing.  What the operand does to the target, to its container or to the variable that
holds the container makes no difference.
-/

/-! ## Runs that leave the state alone -/

namespace Run

variable {α β ι : Type}

/-- If the run gives a result, it leaves the state as it was. -/
def IsSteady (run : Run α) : Prop :=
  ∀ ⦃machine value after⦄, run machine = .ok value after → after = machine

namespace IsSteady

theorem pure (value : α) : (Pure.pure value : Run α).IsSteady := by
  intro machine result after ended
  exact (Run.pure_eq_ok.mp ended).2.symm

theorem fail {cause : Cause} {span : Span} : (Run.fail cause span : Run α).IsSteady := by
  intro machine result after ended
  cases ended

theorem exhausted : (Run.exhausted : Run α).IsSteady := by
  intro machine result after ended
  cases ended

theorem read {f : Heap → α} : (Run.read f).IsSteady := by
  intro machine result after ended
  cases ended
  rfl

theorem bind {run : Run α} {next : α → Run β} (first : run.IsSteady)
    (rest : ∀ value, (next value).IsSteady) : (run >>= next).IsSteady := by
  intro machine result after ended
  obtain ⟨value, middle, ran, goesOn⟩ := Run.bind_eq_ok.mp ended
  exact (rest value goesOn).trans (first ran)

theorem mapM {f : ι → Run α} :
    ∀ {items : List ι}, (∀ item ∈ items, (f item).IsSteady) → (items.mapM f).IsSteady
  | [], _ => by
      rw [List.mapM_nil]
      exact .pure _
  | item :: items, each => by
      rw [List.mapM_cons]
      refine .bind (each item List.mem_cons_self) fun _ => ?_
      refine .bind (mapM fun other member => each other (List.mem_cons_of_mem item member)) ?_
      exact fun _ => .pure _

theorem lookup {scope : FrameRef} {name : String} {span : Span} :
    (Run.lookup scope name span).IsSteady := by
  refine .bind .read fun found => ?_
  cases found with
  | some binding => exact .pure _
  | none => exact .fail

theorem receiver {scope : FrameRef} {span : Span} : (Run.receiver scope span).IsSteady := by
  refine .bind .read fun found => ?_
  cases found with
  | some binding => exact .pure _
  | none => exact .fail

end IsSteady

end Run

/-! ## Steady expressions -/

namespace Expr

/-- Names, the receiver and literals.  A template is as steady as the expressions in it; lists,
objects and functions do not count, since each evaluation makes a new one. -/
inductive IsSteady : Expr → Prop where
  | name (name : String) (span : Span) : IsSteady ⟨.name name, span⟩
  | receiver (span : Span) : IsSteady ⟨.receiver, span⟩
  | number (value : Float) (span : Span) : IsSteady ⟨.number value, span⟩
  | text (value : String) (span : Span) : IsSteady ⟨.text value, span⟩
  | bool (value : Bool) (span : Span) : IsSteady ⟨.bool value, span⟩
  | null (span : Span) : IsSteady ⟨.null, span⟩
  | template (pieces : List String) (holes : List Expr) (span : Span)
      (steady : ∀ hole ∈ holes, hole.IsSteady) : IsSteady ⟨.template pieces holes, span⟩

/-- A name, or an element or a member with steady parts. -/
inductive IsSteadyTarget : Expr → Prop where
  | name (name : String) (span : Span) : IsSteadyTarget ⟨.name name, span⟩
  | index {object index : Expr} (isOptional : Bool) (span : Span) (container : object.IsSteady)
      (key : index.IsSteady) : IsSteadyTarget ⟨.index object index isOptional, span⟩
  | member {object : Expr} (property : String) (isOptional : Bool) (span : Span)
      (container : object.IsSteady) : IsSteadyTarget ⟨.member object property isOptional, span⟩

end Expr

namespace Evaluator

theorem template_isSteady {ev : Evaluator} {scope : FrameRef} :
    ∀ (pieces : List String) {holes : List Expr},
      (∀ hole ∈ holes, (ev.evalText scope hole).IsSteady) →
      (ev.template scope pieces holes).IsSteady
  | [], _, each => .bind (.mapM each) fun _ => .pure _
  | _ :: _, [], _ => .pure _
  | _ :: pieces, hole :: _, each => by
      refine .bind (each hole List.mem_cons_self) fun shown => ?_
      refine .bind (template_isSteady pieces fun other member => ?_) fun _ => .pure _
      exact each other (List.mem_cons_of_mem hole member)

theorem eval_isSteady_of_expression {expr : Expr} {scope : FrameRef}
    (each : ∀ fuel, ((ofFuel fuel).expression expr scope).IsSteady) :
    ∀ fuel, ((ofFuel fuel).eval expr scope).IsSteady
  | 0 => .exhausted
  | fuel + 1 => each fuel

theorem eval_isSteady {expr : Expr} (steady : expr.IsSteady) (scope : FrameRef) :
    ∀ fuel, ((ofFuel fuel).eval expr scope).IsSteady := by
  induction steady with
  | name name span => exact eval_isSteady_of_expression fun _ => .lookup
  | receiver span => exact eval_isSteady_of_expression fun _ => .receiver
  | template pieces holes span steady ih =>
      refine eval_isSteady_of_expression fun fuel => .bind ?_ fun _ => .pure _
      refine template_isSteady pieces fun hole member => ?_
      exact .bind (ih hole member fuel) fun _ => .read
  | _ => exact eval_isSteady_of_expression fun _ => .pure _

/-- A steady expression is no link of a chain. -/
theorem chain_of_isSteady {ev : Evaluator} {scope : FrameRef} {expr : Expr}
    (steady : expr.IsSteady) :
    ev.chain scope expr = (do return some (← ev.eval expr scope)) := by
  cases steady <;> rfl

end Evaluator

/-! ## More fuel -/

namespace Law

/-- Evaluation that ends does the same with more fuel. -/
theorem completing_more (heap : Heap) : ∀ fuel enough, fuel ≤ enough →
    (completing heap).logic.Covers (fun _ => True) (.ofFuel fuel) (.ofFuel enough)
  | 0, _, _ => completing_covers_zero
  | fuel + 1, 0, more => absurd more (Nat.not_succ_le_zero fuel)
  | fuel + 1, enough + 1, more => by
      have covers := completing_more heap fuel enough (Nat.le_of_succ_le_succ more)
      have laps : (completing heap).logic.AllowsLaps (Evaluator.ofFuel fuel).fuel
          (Evaluator.ofFuel enough).fuel := by
        refine .inr ⟨rfl, ?_⟩
        cases fuel with
        | zero => exact Nat.zero_le _
        | succ fuel =>
            cases enough with
            | zero => omega
            | succ enough => exact (by omega : fuel ≤ enough)
      exact covers.next completing_deepens covers (fun _ _ => trivial) laps fuel enough

theorem finishes {α : Type} {first second : Run α} {machine after : Machine} {a : α}
    {result : Machine → α → Prop}
    (relates : (completing machine.heap).logic.Relates machine first second result)
    (ended : first machine = .ok a after) : second machine = .ok a after := by
  have concludes := relates machine ⟨⟨.refl, trivial⟩, .refl machine⟩
  rw [ended] at concludes
  exact concludes.2.2

end Law

namespace Evaluator

theorem eval_of_more {fuel enough : Nat} (more : fuel ≤ enough) {expr : Expr} {scope : FrameRef}
    {machine after : Machine} {value : Value}
    (ended : (ofFuel fuel).eval expr scope machine = .ok value after) :
    (ofFuel enough).eval expr scope machine = .ok value after :=
  Law.finishes ((Law.completing_more machine.heap fuel enough more).eval trivial trivial) ended

end Evaluator

/-! ## Operators -/

namespace UpdateOp

/-- The operator and the right operand of the expression that an update stands for. -/
inductive Spells : UpdateOp → Option Expr → BinaryOp → Expr → Prop where
  | increment (span : Span) : Spells increment none .add ⟨.number 1, span⟩
  | decrement (span : Span) : Spells decrement none .subtract ⟨.number 1, span⟩
  | add (right : Expr) : Spells add (some right) .add right
  | subtract (right : Expr) : Spells subtract (some right) .subtract right
  | multiply (right : Expr) : Spells multiply (some right) .multiply right

/-- An update takes numbers only, and converts nothing. -/
theorem arithmetic_eq_ok {op : UpdateOp} {f : Float → Float → Float} {current operand value : Value}
    (computed : op.arithmetic f current operand = .ok value) :
    ∃ x y, current = .number x ∧ operand = .number y ∧ value = .number (f x y) := by
  cases current with
  | number x =>
      cases operand with
      | number y => exact ⟨x, y, rfl, rfl, (Except.ok.inj computed).symm⟩
      | _ => cases computed
  | _ => cases computed

end UpdateOp

theorem Run.lift_eq_ok {α : Type} {span : Span} {conversion : Except Cause α}
    {before after : Machine} {result : α}
    (ended : Run.lift span conversion before = .ok result after) :
    conversion = .ok result ∧ after = before := by
  cases conversion with
  | ok value =>
      cases ended
      exact ⟨rfl, rfl⟩
  | error cause => cases ended

/-- A text is joined to any other value. -/
theorem Run.binary_add_texts {current given : Value} {span : Span} {machine : Machine}
    (textual : (current.isText || given.isText) = true) :
    Run.binary .add current given span machine =
      .ok (.text (current.toText machine.heap ++ given.toText machine.heap)) machine := by
  have sums : Value.binary machine.heap .add current given =
      .ok (.text (current.toText machine.heap ++ given.toText machine.heap)) := if_pos textual
  have joins : Run.binary .add current given span machine =
      Run.lift span (Value.binary machine.heap .add current given) machine := by
    cases current with
    | list ref =>
        cases given with
        | list other => cases textual
        | _ => rfl
    | _ => rfl
  rw [joins, sums]
  rfl

namespace Evaluator

variable {ev : Evaluator} {op : UpdateOp} {operand : Option Expr} {operator : BinaryOp}
  {right : Expr} {scope : FrameRef} {span : Span} {machine before after : Machine}
  {current value : Value}

theorem updated_none_eq_ok
    (ended : ev.updated op current none scope span before = .ok value after) :
    op.apply before.heap current none = .ok value ∧ after = before :=
  Run.lift_eq_ok ended

theorem updated_some_eq_ok
    (ended : ev.updated op current (some right) scope span before = .ok value after) :
    ∃ given, ev.eval right scope before = .ok given after ∧
      op.apply after.heap current (some given) = .ok value := by
  obtain ⟨values, middle, evaluated, lifted⟩ := Run.bind_eq_ok.mp ended
  obtain ⟨given, reached, evaluated, wrapped⟩ := Run.bind_eq_ok.mp evaluated
  cases wrapped
  obtain ⟨computed, rfl⟩ := Run.lift_eq_ok lifted
  exact ⟨given, evaluated, computed⟩

/-- The operator makes the same of the current value and the right operand as the update does. -/
theorem binary_of_updated (spells : op.Spells operand operator right) {fuel enough : Nat}
    (more : fuel < enough)
    (ended : (ofFuel fuel).updated op current operand scope span before = .ok value after) :
    ∃ given, (ofFuel enough).eval right scope before = .ok given after ∧
      Run.binary operator current given span after = .ok value after := by
  have evaluates {right : Expr} {given : Value}
      (evaluated : (ofFuel fuel).eval right scope before = .ok given after) :
      (ofFuel enough).eval right scope before = .ok given after :=
    eval_of_more (Nat.le_of_lt more) evaluated
  have literal (place : Span) :
      (ofFuel enough).eval ⟨.number 1, place⟩ scope before = .ok (.number 1) before := by
    cases enough with
    | zero => cases more
    | succ enough => rfl
  cases spells with
  | increment place | decrement place =>
      obtain ⟨computed, rfl⟩ := updated_none_eq_ok ended
      obtain ⟨x, y, rfl, one, rfl⟩ := UpdateOp.arithmetic_eq_ok computed
      cases one
      exact ⟨.number 1, literal place, rfl⟩
  | subtract | multiply =>
      obtain ⟨given, evaluated, computed⟩ := updated_some_eq_ok ended
      obtain ⟨x, y, rfl, rfl, rfl⟩ := UpdateOp.arithmetic_eq_ok computed
      exact ⟨.number y, evaluates evaluated, rfl⟩
  | add =>
      obtain ⟨given, evaluated, computed⟩ := updated_some_eq_ok ended
      refine ⟨given, evaluates evaluated, ?_⟩
      simp only [UpdateOp.apply] at computed
      split at computed
      · rename_i textual
        cases computed
        exact Run.binary_add_texts textual
      · obtain ⟨x, y, rfl, rfl, rfl⟩ := UpdateOp.arithmetic_eq_ok computed
        rfl

/-! ## Targets -/

/-- An update that succeeds has come to a target, loaded its value, combined it with the operand
and stored the result. -/
theorem update_eq_ok {expr : Expr}
    (ended : ev.update op expr operand scope span before = .ok value after) :
    ∃ target start current loaded last,
      Target.ofExpr ev scope expr before = .ok target start ∧
      target.load ev scope expr.span start = .ok current loaded ∧
      ev.updated op current operand scope span loaded = .ok value last ∧
      target.store value scope span last = .ok () after := by
  obtain ⟨node, place⟩ := expr
  cases node with
  | name identifier =>
      obtain ⟨current, loaded, loads, ended⟩ := Run.bind_eq_ok.mp ended
      obtain ⟨next, last, updates, ended⟩ := Run.bind_eq_ok.mp ended
      obtain ⟨done, reached, stores, ended⟩ := Run.bind_eq_ok.mp ended
      cases ended
      exact ⟨.name identifier, before, current, loaded, last, rfl, loads, updates, stores⟩
  | index object key isOptional =>
      obtain ⟨container, within, evaluates, ended⟩ := Run.bind_eq_ok.mp ended
      obtain ⟨position, start, locates, ended⟩ := Run.bind_eq_ok.mp ended
      obtain ⟨current, loaded, loads, ended⟩ := Run.bind_eq_ok.mp ended
      obtain ⟨next, last, updates, ended⟩ := Run.bind_eq_ok.mp ended
      obtain ⟨done, reached, stores, ended⟩ := Run.bind_eq_ok.mp ended
      cases ended
      refine ⟨.index container position, start, current, loaded, last, ?_, loads, updates, stores⟩
      exact (Run.bind_of_ok evaluates).trans (Run.bind_of_ok locates)
  | member object property isOptional =>
      obtain ⟨container, start, evaluates, ended⟩ := Run.bind_eq_ok.mp ended
      obtain ⟨current, loaded, loads, ended⟩ := Run.bind_eq_ok.mp ended
      obtain ⟨next, last, updates, ended⟩ := Run.bind_eq_ok.mp ended
      obtain ⟨done, reached, stores, ended⟩ := Run.bind_eq_ok.mp ended
      cases ended
      refine ⟨.member container property, start, current, loaded, last, ?_, loads, updates, ?_⟩
      · exact Run.bind_of_ok evaluates
      · -- A refused write would be reported in other words, but this one was not refused.
        cases found : last.heap.members? container with
        | some ref =>
            rw [Run.writeMember_of_members? found] at stores
            exact (Run.writeMember_of_members? found).trans stores
        | none =>
            rw [Run.writeMember_of_none found] at stores
            cases stores
  | _ => cases ended

/-- An element cannot be stored into null. -/
theorem isNull_of_store_index {container key : Value}
    (stores : (Target.index container key).store value scope span before = .ok () after) :
    container.isNull = false := by
  cases container with
  | null => cases stores
  | _ => rfl

/-- A member cannot be stored into null. -/
theorem isNull_of_store_member {container : Value} {property : String}
    (stores : (Target.member container property).store value scope span before = .ok () after) :
    container.isNull = false := by
  cases container with
  | null => cases stores
  | _ => rfl

theorem linked_of_isNull_eq_false {isOptional : Bool} {container : Value}
    (present : container.isNull = false) : linked isOptional (some container) = some container := by
  simp [linked, present]

/-- As an expression, a target with steady parts is loaded, unless it leads into null. -/
theorem expression_of_load {fuel : Nat} {expr : Expr} (steady : expr.IsSteadyTarget)
    {target : Target} {loaded last : Machine} {next : Value}
    (comes : Target.ofExpr (ofFuel fuel) scope expr before = .ok target before)
    (loads : target.load (ofFuel fuel) scope expr.span before = .ok current loaded)
    (stores : target.store next scope span last = .ok () after) :
    (ofFuel fuel).expression expr scope before = .ok current loaded := by
  cases steady with
  | name name place =>
      cases comes
      exact loads
  | @index object index isOptional place container key =>
      obtain ⟨holder, start, evaluates, comes⟩ := Run.bind_eq_ok.mp comes
      obtain ⟨position, middle, locates, comes⟩ := Run.bind_eq_ok.mp comes
      cases comes
      cases eval_isSteady container scope fuel evaluates
      have present := isNull_of_store_index stores
      have chains : (ofFuel fuel).chain scope ⟨.index object index isOptional, place⟩ before =
          .ok (some current) loaded := by
        rw [chain, chain_of_isSteady container, bind_assoc]
        refine (Run.bind_of_ok evaluates).trans ?_
        rw [pure_bind, linked_of_isNull_eq_false present]
        refine (Run.bind_of_ok locates).trans ?_
        exact Run.bind_of_ok loads
      exact Run.bind_of_ok chains
  | @member object property isOptional place container =>
      obtain ⟨holder, start, evaluates, comes⟩ := Run.bind_eq_ok.mp comes
      cases comes
      have present := isNull_of_store_member stores
      have chains : (ofFuel fuel).chain scope ⟨.member object property isOptional, place⟩ before =
          .ok (some current) loaded := by
        rw [chain, chain_of_isSteady container, bind_assoc]
        refine (Run.bind_of_ok evaluates).trans ?_
        rw [pure_bind, linked_of_isNull_eq_false present]
        exact Run.bind_of_ok loads
      exact Run.bind_of_ok chains

theorem ofExpr_isSteady {expr : Expr} (steady : expr.IsSteadyTarget) (scope : FrameRef)
    (fuel : Nat) : (Target.ofExpr (ofFuel fuel) scope expr).IsSteady := by
  cases steady with
  | name name place => exact .pure _
  | index isOptional place container key =>
      refine .bind (eval_isSteady container scope fuel) fun _ => ?_
      exact .bind (eval_isSteady key scope fuel) fun _ => .pure _
  | member property isOptional place container =>
      exact .bind (eval_isSteady container scope fuel) fun _ => .pure _

theorem ofExpr_of_more {fuel enough : Nat} (more : fuel ≤ enough) {expr : Expr} {target : Target}
    (comes : Target.ofExpr (ofFuel fuel) scope expr before = .ok target after) :
    Target.ofExpr (ofFuel enough) scope expr before = .ok target after := by
  obtain ⟨node, place⟩ := expr
  cases node with
  | index object key isOptional =>
      obtain ⟨container, middle, evaluates, comes⟩ := Run.bind_eq_ok.mp comes
      obtain ⟨position, last, locates, comes⟩ := Run.bind_eq_ok.mp comes
      refine (Run.bind_of_ok (eval_of_more more evaluates)).trans ?_
      exact (Run.bind_of_ok (eval_of_more more locates)).trans comes
  | member object property isOptional =>
      obtain ⟨container, middle, evaluates, comes⟩ := Run.bind_eq_ok.mp comes
      exact (Run.bind_of_ok (eval_of_more more evaluates)).trans comes
  | _ => exact comes

/-- The operators that updates stand for evaluate both of their operands. -/
theorem binary_of_spells (spells : op.Spells operand operator right) {left : Expr} :
    ev.binary operator left right scope span = (do
      let current ← ev.eval left scope
      let given ← ev.eval right scope
      Run.binary operator current given span) := by
  cases spells <;> rfl

/-! ## Updates written out -/

/-- An update that succeeds is an assignment that succeeds, once there is fuel for the assignment:
the target comes to the same place, the operator expression to the value of the update, and storing
it there leads to the state that the update leads to. -/
theorem assign_of_update {op : UpdateOp} {operand : Option Expr} {operator : BinaryOp}
    {right target : Expr} (spells : op.Spells operand operator right)
    (steady : target.IsSteadyTarget) {fuel : Nat} {scope : FrameRef} {span : Span}
    {machine after : Machine} {value : Value}
    (updates : (ofFuel fuel).eval ⟨.update op target operand, span⟩ scope machine = .ok value after)
    {enough : Nat} (more : fuel < enough) :
    let written : Expr := ⟨.binary operator target right, span⟩
    (∃ place middle,
      Target.ofExpr (ofFuel enough) scope target machine = .ok place machine ∧
      (ofFuel enough).eval written scope machine = .ok value middle ∧
      place.store value scope span middle = .ok () after) ∧
    (ofFuel (enough + 1)).exec ⟨.assign target written, span⟩ scope machine =
      .ok .proceed after := by
  intro written
  obtain ⟨fuel, rfl⟩ : ∃ less, fuel = less + 1 := by
    cases fuel with
    | zero => cases updates
    | succ fuel => exact ⟨fuel, rfl⟩
  obtain ⟨enough, rfl⟩ : ∃ less, enough = less + 2 := ⟨enough - 2, by omega⟩
  -- The rules of the assignment are two levels further down when they come to the target's value.
  have further : fuel + 1 ≤ enough + 1 := by omega
  replace updates : (ofFuel enough).update op target operand scope span machine = .ok value after :=
    eval_of_more further updates
  obtain ⟨place, start, current, loaded, last, comes, loads, changes, stores⟩ :=
    update_eq_ok updates
  cases ofExpr_isSteady steady scope enough comes
  obtain ⟨given, evaluates, operates⟩ :=
    binary_of_updated spells (Nat.lt_succ_self enough) changes
  have reads : (ofFuel (enough + 1)).eval target scope machine = .ok current loaded :=
    expression_of_load steady comes loads stores
  have computes : (ofFuel (enough + 2)).eval written scope machine = .ok value last := by
    show (ofFuel (enough + 1)).binary operator target right scope span machine = _
    rw [binary_of_spells spells]
    refine (Run.bind_of_ok reads).trans ?_
    exact (Run.bind_of_ok evaluates).trans operates
  have arrives : Target.ofExpr (ofFuel (enough + 2)) scope target machine = .ok place machine :=
    ofExpr_of_more (by omega) comes
  refine ⟨⟨place, last, arrives, computes, stores⟩, ?_⟩
  have assigns : (ofFuel (enough + 2)).assign target written scope span machine = .ok () after := by
    rw [Target.assign_eq]
    refine (Run.bind_of_ok arrives).trans ?_
    exact (Run.bind_of_ok computes).trans stores
  exact Run.bind_of_ok assigns

/-- A machine with a variable that holds a text. -/
def oneText : Machine :=
  { Machine.bare {} none with
    heap := (Machine.bare {} none).heap.bind ⟨0⟩ "x" { value := .text "a" } }

/-- The operand may change the variable that is updated: both ways `x += (x += "b")` joins the text
that was there first with the one that the operand has made. -/
theorem assign_of_update_nested :
    let x : Expr := ⟨.name "x", {}⟩
    let operand : Expr := ⟨.update .add x (some ⟨.text "b", {}⟩), {}⟩
    ∃ after, (ofFuel 3).eval ⟨.update .add x (some operand), {}⟩ ⟨0⟩ oneText =
        .ok (.text "aab") after ∧
      (ofFuel 5).exec ⟨.assign x ⟨.binary .add x operand, {}⟩, {}⟩ ⟨0⟩ oneText =
        .ok .proceed after := by
  intro x operand
  have updates : (ofFuel 3).eval ⟨.update .add x (some operand), {}⟩ ⟨0⟩ oneText =
      .ok (.text "aab") _ := rfl
  exact ⟨_, updates, (assign_of_update (.add operand) (.name "x" {}) updates (by decide)).2⟩

end Evaluator

end Hati
