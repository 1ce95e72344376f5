import Hati.Proofs.Logic.Programs

namespace Hati

/-!
# Where faults come from

A fault names a cause and a place, and both come from the program: the place is that
of a node, and only a jump that stands outside every loop lets a jump be blamed.
What the program is made of is found in two places while it runs, in the code at
hand and in the functions and classes of the heap.  So the invariant that evaluation
keeps says of the heap that it draws only on known nodes, and of what evaluation
ends with that its fault is admitted.

A blame fixes what is known and admitted, and evaluation keeps to every blame.
-/

/-- What the nodes of a program are, at which places they may fail, and which faults
that admits. -/
structure Blame where
  known : Node → Prop
  place : Span → Prop
  admits : Fault → Prop
  known_parts : ∀ whole part, known whole → part ∈ whole.parts → known part
  known_place : ∀ node, known node → place node.span
  admits_placed : ∀ cause span, cause.isStrayJump = false → place span → admits ⟨cause, span⟩
  admits_stray : ∀ decl name jump, known (.function decl) → StrayAmong decl.body jump →
    admits ⟨.strayJumpIn name, decl.span⟩
  admits_orAt : ∀ fault span, admits fault → place span → admits (fault.orAt span)

/-- The fault that a run fails with. -/
def Run.fault? {α : Type} (run : Run α) (machine : Machine) : Option Fault :=
  match run machine with
  | .error (.fault fault) _ => some fault
  | _ => none

theorem Run.fault?_eq_some {α : Type} {run : Run α} {machine : Machine} {fault : Fault} :
    run.fault? machine = some fault ↔ ∃ after, run machine = .error (.fault fault) after := by
  unfold Run.fault?
  cases run machine with
  | ok a after => simp
  | error halt after => cases halt <;> simp

namespace Blame

variable {blame : Blame}

/-- A machine whose heap draws on known nodes and whose journal holds admitted faults. -/
structure Accepts (blame : Blame) (machine : Machine) : Prop where
  draws : machine.heap.Draws blame.known
  journal : ∀ fault job, .callbackFailed fault job ∈ machine.journal → blame.admits fault

/-- If evaluation ends with a fault, the fault is admitted. -/
def Ends (blame : Blame) : Halt → Prop
  | .fault fault => blame.admits fault
  | .exit _ | .exhausted => True

/-- What a blame speaks of; it asks nothing of scopes, names and values. -/
def terms (blame : Blame) : Logic.Terms where
  leads _ := blame.Accepts
  ends := blame.Ends
  known := blame.known
  place := blame.place
  binds _ := True
  assigns _ := True
  declares _ _ := True
  owns _ := True
  clears := True
  evaluates _ _ := True
  executes _ _ := True

/-- Only a report adds a fault to the journal, and the fault is one that evaluation may
end with. -/
theorem Accepts.move {machine after : Machine} (accepted : blame.Accepts machine)
    (move : Logic.Move blame.terms machine after) : blame.Accepts after := by
  refine ⟨move.draws accepted.draws, ?_⟩
  have pushed : ∀ event : Event, (∀ fault job, .callbackFailed fault job = event →
      blame.admits fault) → ∀ fault job,
      .callbackFailed fault job ∈ machine.journal.push event → blame.admits fault := by
    intro event admitted fault job member
    rcases Array.mem_push.mp member with former | new
    · exact accepted.journal fault job former
    · exact admitted fault job new
  cases move with
  | edit | print | schedule => exact accepted.journal
  | make => exact pushed _ nofun
  | note event harmless otherwise =>
      apply pushed
      rintro _ _ rfl
      exact absurd rfl harmless
  | report fault job admitted =>
      apply pushed
      rintro _ _ ⟨⟩
      exact admitted

/-- What evaluation keeps. -/
def logic (blame : Blame) : Logic where
  toTerms := blame.terms
  self accepted := accepted
  trans _ accepted := accepted
  moves accepted move := accepted.move move
  constructs accepted _ :=
    ⟨⟨accepted.draws, accepted.journal⟩, fun _ ended => ⟨ended.draws, ended.journal⟩⟩
  formed := False.elim
  grows := False.elim
  draws accepted := accepted.draws
  ends_fault := blame.admits_placed
  ends_stray := blame.admits_stray
  ends_exit _ := trivial
  ends_orAt := blame.admits_orAt
  abandons_orAt _ _ impossible := impossible
  known_parts := blame.known_parts
  known_place := blame.known_place
  known_binds _ _ _ _ := trivial
  known_assigns _ _ _ _ := trivial
  known_clears _ _ _ _ := trivial
  evaluates_later _ _ := trivial
  executes_later _ _ := trivial
  evaluates_of_executes _ := trivial
  inside_of_evaluates := False.elim
  opens _ _ := trivial
  receives _ := trivial
  declares_fresh _ _ _ := trivial
  owns_fresh _ := trivial
  settles _ _ _ _ := trivial

/-- The bodies of calls keep to the blame as well. -/
theorem deepens (blame : Blame) : blame.logic.Deepens blame.logic where
  enters accepted _ := ⟨accepted.draws, accepted.journal⟩
  leaves _ ended := ⟨ended.draws, ended.journal⟩
  ends _ ended := ended
  abandons _ impossible := impossible
  tracks := .rfl
  known _ known := known
  place _ here := here
  binds _ := trivial
  executes _ := trivial

theorem covers_ofFuel (blame : Blame) (fuel : Nat) :
    blame.logic.Covers (fun code => blame.known (.code code)) (.ofFuel fuel) (.ofFuel fuel) :=
  Logic.covers_ofFuel trivial blame.deepens fuel

/-- A statement may be executed anywhere. -/
theorem admits_stmt {machine : Machine} {scope : FrameRef} {stmt : Stmt}
    (known : blame.known (.code (.stmt stmt))) : blame.logic.Admits machine stmt scope :=
  Logic.Open.admits ⟨trivial, fun _ _ => trivial⟩ known

/-! ## Runs that keep to a blame -/

/-- Started on an accepted machine, the run leaves an accepted one, and it fails with
admitted faults only. -/
def Limits {α : Type} (blame : Blame) (run : Run α) : Prop :=
  ∀ machine, blame.Accepts machine → blame.Accepts (run.leaves machine) ∧
    ∀ fault after, run machine = .error (.fault fault) after → blame.admits fault

theorem Limits.ofRelates {α : Type} {run : Run α} {result : Machine → α → Prop}
    (relates : ∀ world, blame.logic.Relates world run run result) : blame.Limits run :=
  fun machine accepted => ⟨(relates machine).leaves accepted, fun _ _ failed =>
    ((relates machine).ends accepted failed).resolve_left id⟩

/-- If faults may be placed anywhere, only the code of a request has to be known, and the
jumps that stray in a program admitted. -/
theorem limits_request {request : Request} (fuel : Nat)
    (known : ∀ code ∈ request.code, blame.known (.code code))
    (anywhere : ∀ span, blame.place span)
    (strays : ∀ program, request = .execute program → ∀ stmt ∈ program, ∀ jump,
      stmt.Strays jump → blame.admits ⟨.strayJump, stmt.span⟩) :
    blame.Limits (request.run (.ofFuel fuel)) := by
  refine .ofRelates fun world => (blame.covers_ofFuel fuel).request ?_
  have held : ∀ value, blame.logic.Held world value := fun _ => False.elim
  cases request with
  | execute program =>
      have inside : ∀ stmt ∈ program, blame.known (.code (.stmt stmt)) :=
        fun stmt member => known _ (List.mem_map_of_mem member)
      exact ⟨inside, fun _ _ stmt member => admits_stmt (inside stmt member), strays program rfl⟩
  | eval expr scope => exact ⟨known _ List.mem_cons_self, trivial⟩
  | exec stmt scope => exact ⟨known _ List.mem_cons_self, admits_stmt (known _ List.mem_cons_self)⟩
  | call callee receiver args scope span =>
      exact ⟨anywhere span, held callee, fun value _ => held value, fun item _ => held item⟩
  | construct cls args scope span => exact ⟨anywhere span, held _, fun item _ => held item⟩
  | delete target args scope span =>
      exact ⟨anywhere span, trivial, held target, fun item _ => held item⟩
  | drain rounds executed => exact ⟨anywhere .builtin, trivial, fun _ => id⟩

/-- A new machine holds built-in functions only, so every blame accepts it. -/
theorem accepts_new (blame : Blame) (settings : Settings) (outputLimit : Option Nat)
    (threads : ThreadPolicy) : blame.Accepts (.new settings outputLimit threads) := by
  have bare : blame.Accepts (.bare settings outputLimit threads) :=
    ⟨.ofEmpty rfl rfl, fun _ _ => nofun⟩
  have leads : blame.logic.leads (.bare settings outputLimit threads)
      (.new settings outputLimit threads) := Logic.Relates.leads_new (fun _ => trivial) bare
  exact leads

end Blame

end Hati
