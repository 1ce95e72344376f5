import Hati.Proofs.Law

namespace Hati

/-!
# Rationed evaluation

The limit of open calls is for declared functions only.  Here constructions and
built-in calls are limited as well, by a ration that everything inside of them has
one unit less of.  What an evaluation may still open then shrinks with every call
and every construction, and between them with the size of the code, so without
unbounded loops there is an amount of fuel that is always enough.
-/

namespace Code

/-- A loop that may go on without end. -/
def IsLoop : Code → Prop
  | stmt s => s.node.isUnbounded = true
  | expr _ => False

end Code

/-! ## Rationed evaluation -/

namespace Run

variable {α : Type}

/-- Go on with one unit of the ration less, or report that it is used up. -/
def spending (limit : Nat) (span : Span) (ration : Nat) (next : Nat → Run α) : Run α :=
  match ration with
  | 0 => Run.fail (.callDepth limit) span
  | rest + 1 => next rest

/-- The run comes to an end of its own. -/
def Ends (run : Run α) (machine : Machine) : Prop :=
  ∀ after, run machine ≠ .error .exhausted after

/-- The run is ended because too much is open. -/
def Refused (limit : Nat) (run : Run α) (machine : Machine) : Prop :=
  ∃ span after, run machine = .error (.fault ⟨.callDepth limit, span⟩) after

end Run

namespace Evaluator

/-- The evaluator that applies the rules `fuel` levels deep, with at most `ration`
constructions and built-in calls open at a time.  One more is refused like a call
of a declared function at the limit. -/
def rationed (limit : Nat) : Nat → Nat → Evaluator
  | 0, _ => exhausted
  | fuel + 1, ration =>
    { fuel := fuel
      eval := fun expr scope =>
        if expr.node.isConstruct then
          Run.spending limit expr.span ration fun rest =>
            (rationed limit fuel rest).expression expr scope
        else (rationed limit fuel ration).expression expr scope
      exec := fun stmt scope => (rationed limit fuel ration).statement stmt scope
      call := fun callee receiver args scope span machine =>
        if callee.isBuiltin machine.heap then
          Run.spending limit span ration
            (fun rest => (rationed limit fuel rest).invoke callee receiver args scope span) machine
        else (rationed limit fuel ration).invoke callee receiver args scope span machine }

end Evaluator

namespace Law

variable {law : Law} {asked : Code → Prop} {ev other : Evaluator}

/-- A law under which nothing can be called covers every evaluator. -/
theorem covers_ofUnreachable (unreachable : ∀ limit depth, ¬ law.calls limit depth) :
    law.logic.Covers law.permit.code ev other where
  eval _ _ _ onward := absurd (law.logic.self onward).1.calls (unreachable _ _)
  exec _ _ _ onward := absurd (law.logic.self onward).1.calls (unreachable _ _)
  call _ _ _ _ _ onward := absurd (law.logic.self onward).1.calls (unreachable _ _)
  known _ permitted := permitted
  parts := law.code_parts

/-- An evaluator that covers all permitted code covers part of it. -/
theorem covers_ofWhole (covers : law.logic.Covers asked ev other)
    (whole : ∀ code, law.permit.code code → asked code) :
    law.logic.Covers law.permit.code ev other where
  eval permitted := covers.eval (whole _ permitted)
  exec permitted := covers.exec (whole _ permitted)
  call := covers.call
  known _ permitted := permitted
  parts := law.code_parts

/-- Rationed evaluation of code without unbounded loops, none of it larger than
`bound`, while at most `calls` functions may still be called inside one another.
It is compared with evaluation unless it is refused, and it never runs out of fuel. -/
def rationing (heap : Heap) (limit bound calls : Nat)
    (stored : heap.Stores fun code => sizeOf code ≤ bound ∧ code.Lacks Code.IsLoop) : Law where
  permit :=
    { code := fun code => sizeOf code ≤ bound ∧ code.Lacks Code.IsLoop
      declares := fun _ _ => True
      owns := fun _ => True
      clears := True }
  since := heap
  calls most depth := most - depth ≤ calls
  abandons halt := ∃ span, halt = .fault ⟨.callDepth limit, span⟩
  exhausts := False
  stored := stored
  code_parts _ _ permitted member :=
    ⟨Nat.le_trans (Nat.le_of_lt (Code.sizeOf_lt_of_mem_parts member)) permitted.1,
      permitted.2.part member⟩
  declares_fresh _ _ _ := trivial
  owns_fresh _ _ := trivial
  clears_delete _ _ _ _ := trivial
  abandons_orAt := by
    rintro fault span ⟨place, same⟩
    cases same
    exact ⟨_, rfl⟩

section Rationing

variable {heap : Heap} {limit bound : Nat}
  {stored : heap.Stores fun code => sizeOf code ≤ bound ∧ code.Lacks Code.IsLoop}

/-- Without a ration the run is refused; with one it goes on with less. -/
theorem rationing_spending {calls ration : Nat} {α : Type} {machine : Machine} {span : Span}
    {result : Machine → α → Prop} {first : Nat → Run α} {second : EStateM.Result Halt Machine α}
    (valid : (rationing heap limit bound calls stored).logic.leads machine machine)
    (next : ∀ rest, ration = rest + 1 →
      (rationing heap limit bound calls stored).logic.Concludes machine result
        (first rest machine) second) :
    (rationing heap limit bound calls stored).logic.Concludes machine result
      (Run.spending limit span ration first machine) second := by
  cases ration with
  | zero => exact ⟨valid, .inl ⟨span, rfl⟩⟩
  | succ rest => exact next rest rfl

/-- A call opens either a declared function or a built-in one, and whatever it asks
for then has less left to open. -/
theorem rationing_call {calls ration fuel enough : Nat}
    (smaller : ∀ fewer less, fewer + less < calls + ration →
      (rationing heap limit bound fewer stored).logic.Covers
        (rationing heap limit bound fewer stored).permit.code
        (.rationed limit fuel less) (.ofFuel enough))
    {world : Machine} {callee : Value} {receiver : Option Value} {args : List Value}
    {scope : FrameRef} {span : Span} :
    (rationing heap limit bound calls stored).logic.Relates world
      ((Evaluator.rationed limit (fuel + 1) ration).call callee receiver args scope span)
      ((Evaluator.ofFuel (enough + 1)).call callee receiver args scope span)
      (rationing heap limit bound calls stored).logic.Held := by
  intro machine onward
  have valid := (rationing heap limit bound calls stored).logic.self onward
  simp only [Evaluator.rationed]
  split
  · rename_i isBuiltin
    refine rationing_spending valid fun rest spent => ?_
    exact (smaller calls rest (by omega)).concludes_builtin trivial valid isBuiltin fun _ _ => held
  · rename_i notBuiltin
    have declared : callee.isBuiltin machine.heap = false := by simpa using notBuiltin
    cases calls with
    | zero =>
        -- No function can be called any more: the limit is reached.
        have deepens : (rationing heap limit bound 0 stored).logic.Deepens
            ((rationing heap limit bound 0 stored).atCalls fun _ _ => False).logic := by
          refine deepens fun most depth below left => ?_
          have none : most - depth ≤ 0 := left
          omega
        exact deepens.concludes_declared (covers_ofUnreachable fun _ _ => id) (fun _ => id) trivial
          valid declared (fun _ _ => held) fun _ _ => held
    | succ fewer =>
        have deepens : (rationing heap limit bound (fewer + 1) stored).logic.Deepens
            (rationing heap limit bound fewer stored).logic := by
          refine deepens fun most depth below left => ?_
          have some : most - depth ≤ fewer + 1 := left
          show most - (depth + 1) ≤ fewer
          omega
        exact deepens.concludes_declared (smaller fewer ration (by omega)) (fun _ => id) trivial
          valid declared (fun _ _ => held) fun _ _ => held

/-- Code of less than some size is evaluated with fuel for its own depth and for
what it may open. -/
theorem rationing_covers_below {calls ration : Nat}
    (smaller : ∀ fewer less fuel enough, fewer + less < calls + ration →
      (calls + ration) * (bound + 2) ≤ fuel → fuel ≤ enough →
      (rationing heap limit bound fewer stored).logic.Covers
        (rationing heap limit bound fewer stored).permit.code
        (.rationed limit fuel less) (.ofFuel enough)) :
    ∀ size fuel enough, (calls + ration) * (bound + 2) + size + 1 ≤ fuel → fuel ≤ enough →
      (rationing heap limit bound calls stored).logic.Covers
        (fun code => (sizeOf code ≤ bound ∧ code.Lacks Code.IsLoop) ∧ sizeOf code < size)
        (.rationed limit fuel ration) (.ofFuel enough) := by
  intro size
  induction size using Nat.strongRecOn with
  | ind size ih =>
      intro fuel enough fits more
      obtain ⟨fuel, rfl⟩ : ∃ less, fuel = less + 1 := ⟨fuel - 1, by omega⟩
      obtain ⟨enough, rfl⟩ : ∃ less, enough = less + 1 := ⟨enough - 1, by omega⟩
      have opened := fun fewer less fewerLess =>
        smaller fewer less fuel enough fewerLess (by omega) (by omega)
      have closed := (rationing heap limit bound calls stored).code_parts
      refine ⟨?_, ?_, fun _ _ _ _ => rationing_call opened, fun code asked => asked.1, ?_⟩
      · rintro world expr scope ⟨permitted, small⟩ inside
        have inner := ih (sizeOf (Code.expr expr)) small fuel enough (by omega) (by omega)
        have known : ∀ part ∈ expr.node.parts,
            (sizeOf part ≤ bound ∧ part.Lacks Code.IsLoop) ∧
              sizeOf part < sizeOf (Code.expr expr) :=
          fun part member =>
            ⟨closed (.expr expr) part permitted member, Code.sizeOf_lt_of_mem_parts member⟩
        intro machine onward
        have valid := (rationing heap limit bound calls stored).logic.self onward
        simp only [Evaluator.rationed]
        split
        · refine rationing_spending valid fun rest spent => ?_
          have whole := opened calls rest (by omega)
          exact whole.expression trivial permitted (fun part member => (known part member).1)
            (fun _ _ => id) machine valid
        · rename_i single
          exact inner.expression trivial permitted known
            (fun isConstruct => absurd isConstruct single) machine valid
      · rintro world stmt scope ⟨permitted, small⟩ admitted
        have inner := ih (sizeOf (Code.stmt stmt)) small fuel enough (by omega) (by omega)
        refine inner.statement permitted (fun part member => ?_) admitted fun isLoop => ?_
        · exact ⟨closed (.stmt stmt) part permitted member, Code.sizeOf_lt_of_mem_parts member⟩
        · exact absurd isLoop permitted.2.self
      · rintro whole part ⟨permitted, small⟩ member
        exact ⟨closed whole part permitted member,
          Nat.lt_trans (Code.sizeOf_lt_of_mem_parts member) small⟩

/-- With enough fuel, rationed evaluation ends and does what evaluation does,
unless it is refused. -/
theorem rationing_covers : ∀ total calls ration fuel enough, calls + ration = total →
    (total + 1) * (bound + 2) ≤ fuel → fuel ≤ enough →
    (rationing heap limit bound calls stored).logic.Covers
      (rationing heap limit bound calls stored).permit.code
      (.rationed limit fuel ration) (.ofFuel enough) := by
  intro total
  induction total using Nat.strongRecOn with
  | ind total ih =>
      intro calls ration fuel enough sum fits more
      subst sum
      have fewer : ∀ fewer less fuel enough, fewer + less < calls + ration →
          (calls + ration) * (bound + 2) ≤ fuel → fuel ≤ enough →
          (rationing heap limit bound fewer stored).logic.Covers
            (rationing heap limit bound fewer stored).permit.code
            (.rationed limit fuel less) (.ofFuel enough) := by
        intro fewer less fuel enough smaller fits more
        refine ih (fewer + less) smaller fewer less fuel enough rfl ?_ more
        exact Nat.le_trans (Nat.mul_le_mul_right _ smaller) fits
      rw [Nat.add_mul, Nat.one_mul] at fits
      have below := rationing_covers_below fewer (bound + 1) fuel enough (by omega) more
      exact covers_ofWhole below fun code permitted => ⟨permitted, Nat.lt_succ_of_le permitted.1⟩

end Rationing

/-- Evaluation is compared with another one as far as its fuel reaches. -/
def completing (heap : Heap) : Law :=
  { unrestricted heap fun _ _ => True with
    abandons := (· = .exhausted)
    exhausts := False
    abandons_orAt := fun _ _ impossible => by cases impossible }

/-- A first evaluation without fuel is compared with any other one. -/
theorem completing_covers_zero {heap : Heap} :
    (completing heap).logic.Covers (fun _ => True) .exhausted other where
  eval _ _ := .abandoned rfl
  exec _ _ := .abandoned rfl
  call _ _ _ _ := .abandoned rfl
  known _ _ := trivial
  parts _ _ _ _ := trivial

theorem completing_deepens {heap : Heap} :
    (completing heap).logic.Deepens (completing heap).logic :=
  deepens fun _ _ _ _ => trivial

/-- A ration for every level of the rules is never used up. -/
theorem completing_covers (heap : Heap) (limit : Nat) :
    ∀ fuel enough ration, fuel ≤ enough → fuel ≤ ration →
      (completing heap).logic.Covers (fun _ => True) (.ofFuel fuel) (.rationed limit enough ration)
  | 0, _, _, _, _ => completing_covers_zero
  | fuel + 1, 0, _, more, _ => absurd more (by omega)
  | fuel + 1, _ + 1, 0, _, rations => absurd rations (by omega)
  | fuel + 1, enough + 1, ration + 1, more, rations => by
      have whole := completing_covers heap limit fuel enough (ration + 1) (by omega) (by omega)
      have opened := completing_covers heap limit fuel enough ration (by omega) (by omega)
      have laps : (completing heap).logic.AllowsLaps (Evaluator.ofFuel fuel).fuel
          (Evaluator.rationed limit enough (ration + 1)).fuel := by
        refine .inr ⟨rfl, ?_⟩
        cases fuel with
        | zero => exact Nat.zero_le _
        | succ fuel =>
            cases enough with
            | zero => omega
            | succ enough => exact (by omega : fuel ≤ enough)
      refine ⟨?_, ?_, ?_, fun _ _ => trivial, fun _ _ _ _ => trivial⟩
      · intro world expr scope _ inside machine onward
        simp only [Evaluator.rationed]
        split
        · exact opened.expression inside trivial (fun _ _ => trivial) (fun _ _ _ => trivial)
            machine onward
        · exact whole.expression inside trivial (fun _ _ => trivial) (fun _ _ _ => trivial)
            machine onward
      · intro world stmt scope _ admitted
        exact whole.statement trivial (fun _ _ => trivial) admitted fun _ => laps
      · intro world callee receiver args scope span _ _ _ _ machine onward
        have valid := (completing heap).logic.self onward
        simp only [Evaluator.rationed]
        split
        · rename_i isBuiltin
          exact opened.concludes_builtin trivial valid isBuiltin fun _ _ => held
        · rename_i notBuiltin
          have declared : callee.isBuiltin machine.heap = false := by simpa using notBuiltin
          exact completing_deepens.concludes_declared whole (fun _ _ => trivial) trivial valid
            declared (fun _ _ => held) fun _ _ => held

theorem ends_of_relates {α : Type} {first second : Run α} {result : Machine → α → Prop}
    {machine : Machine} (relates : law.logic.Relates machine first second result)
    (reached : law.Reached machine) (exhausts : ¬ law.exhausts)
    (compared : ¬ law.abandons .exhausted) : first.Ends machine := by
  intro after ended
  rcases relates.ends ⟨reached, .refl machine⟩ ended with abandoned | ended
  · exact compared abandoned
  · exact exhausts (ended rfl)

end Law

/-! ## Programs -/

namespace Evaluator

variable {machine : Machine} {program : List Stmt}

/-- Under a ration a program ends, and it does what it does without one unless it
is refused.  The fuel it needs is a level of rules for every nesting of its text,
for each thing that may be open. -/
theorem execute_rationed (codeless : ∀ code, machine.heap.Stores code)
    (loopFree : ∀ stmt ∈ program, (Code.stmt stmt).Lacks Code.IsLoop) (limit ration fuel : Nat)
    (fits : (machine.settings.maxCallDepth + ration + 1) * (sizeOf program + 2) ≤ fuel) :
    ((rationed limit fuel ration).execute program).Ends machine ∧
      (((rationed limit fuel ration).execute program).Refused limit machine ∨
        (ofFuel fuel).execute program machine =
          (rationed limit fuel ration).execute program machine) := by
  let law := Law.rationing machine.heap limit (sizeOf program) machine.settings.maxCallDepth
    (codeless _)
  have covers : law.logic.Covers law.permit.code (rationed limit fuel ration) (ofFuel fuel) :=
    Law.rationing_covers _ machine.settings.maxCallDepth ration fuel fuel rfl fits
      (Nat.le_refl fuel)
  have reached : law.Reached machine := ⟨.refl, Nat.sub_le _ _⟩
  have known : ∀ stmt ∈ program, law.permit.code (.stmt stmt) := by
    intro stmt member
    have smaller := List.sizeOf_lt_of_mem member
    refine ⟨?_, loopFree stmt member⟩
    simp only [Code.stmt.sizeOf_spec]
    omega
  have admitted : ∀ scope, ∀ stmt ∈ program, law.logic.Admits machine stmt scope :=
    fun _ stmt member => Law.admits_of_declares (fun _ => trivial) (known stmt member)
  have relates : law.logic.Relates machine ((rationed limit fuel ration).execute program)
      ((ofFuel fuel).execute program) law.logic.Held :=
    covers.execute known (fun _ onward stmt member => (admitted _ stmt member).later onward)
      fun _ _ _ _ => nofun
  have compared : ¬ law.abandons .exhausted := by
    rintro ⟨span, impossible⟩
    cases impossible
  refine ⟨Law.ends_of_relates relates reached id compared, ?_⟩
  have concludes := relates machine ⟨reached, .refl machine⟩
  unfold Run.Refused
  revert concludes
  cases (rationed limit fuel ration).execute program machine with
  | ok value after => exact fun concludes => .inr concludes.2.2
  | error halt after =>
      rintro ⟨-, ⟨span, rfl⟩ | ⟨-, same⟩⟩
      · exact .inl ⟨span, after, rfl⟩
      · exact .inr same

/-- A program that ends does the same under a ration of its fuel. -/
theorem execute_rationed_of_ends {fuel enough ration : Nat}
    (ends : ((ofFuel fuel).execute program).Ends machine) (limit : Nat) (more : fuel ≤ enough)
    (rations : fuel ≤ ration) :
    (rationed limit enough ration).execute program machine =
      (ofFuel fuel).execute program machine := by
  have covers := Law.completing_covers machine.heap limit fuel enough ration more rations
  have relates : (Law.completing machine.heap).logic.Relates machine
      ((ofFuel fuel).execute program) ((rationed limit enough ration).execute program)
      (Law.completing machine.heap).logic.Held := by
    refine covers.execute (fun _ _ => trivial) (fun _ _ _ _ => ?_) fun _ _ _ _ => nofun
    exact Law.admits_of_declares (fun _ => trivial) trivial
  have concludes := relates machine ⟨⟨.refl, trivial⟩, .refl machine⟩
  unfold Run.Ends at ends
  revert concludes ends
  cases (ofFuel fuel).execute program machine with
  | ok value after => exact fun _ concludes => concludes.2.2
  | error halt after =>
      rintro ends ⟨-, rfl | ⟨-, same⟩⟩
      · exact absurd rfl (ends after)
      · exact same

/-- A program that ends is accepted under some ration. -/
theorem exists_ration_of_ends {fuel : Nat} (ends : ((ofFuel fuel).execute program).Ends machine) :
    ∃ ration, ∀ enough, fuel ≤ enough →
      ¬ ((rationed ration enough ration).execute program).Refused ration machine := by
  -- At most one ration reports the very limit that the program ends with.
  by_cases refused : ((ofFuel fuel).execute program).Refused fuel machine
  · refine ⟨fuel + 1, fun enough more => ?_⟩
    obtain ⟨span, after, limited⟩ := refused
    rintro ⟨place, later, again⟩
    rw [execute_rationed_of_ends ends (fuel + 1) more (Nat.le_succ fuel), limited] at again
    simp at again
  · refine ⟨fuel, fun enough more => ?_⟩
    rintro ⟨span, after, limited⟩
    rw [execute_rationed_of_ends ends fuel more (Nat.le_refl fuel)] at limited
    exact refused ⟨span, after, limited⟩

end Evaluator

end Hati
