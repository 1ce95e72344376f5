import Hati.Proofs.Law

namespace Hati

/-!
# The context of calls

The machine counts the open calls and remembers the class whose constructor runs.
Both are changed around the code of a call and changed back when that code has
ended, so an evaluation ends in the context that it started in, whether it fails
or not.  The number of open calls stays within its limit all the while: raising an
alarm wherever it does not would change no evaluation.
-/

namespace Machine

/-- The number of open calls and the class under construction. -/
def context (machine : Machine) : Nat × Option ClassRef :=
  (machine.callDepth, machine.constructing)

/-- No more calls are open than may be. -/
def isWithinLimit (machine : Machine) : Bool :=
  decide (machine.callDepth ≤ machine.settings.maxCallDepth)

theorem Evolves.context {permit : Permit} {before after : Machine}
    (evolves : before.Evolves permit after) : after.context = before.context := by
  rw [Machine.context, evolves.callDepth, evolves.constructing]
  rfl

end Machine

/-! ## Watching evaluation -/

namespace Run

variable {α : Type}

/-- Raise an alarm if the run starts or ends on a machine that is not safe. -/
def watched (safe : Machine → Bool) (alarm : Halt) (run : Run α) : Run α := fun machine =>
  if safe machine then
    if safe (run.leaves machine) then run machine else .error alarm (run.leaves machine)
  else .error alarm machine

theorem watched_eq {safe : Machine → Bool} (alarm : Halt) {run : Run α} {machine : Machine}
    (starts : safe machine = true) (ends : safe (run.leaves machine) = true) :
    watched safe alarm run machine = run machine := by
  simp [watched, starts, ends]

end Run

namespace Evaluator

/-- A call that is watched while the body of a declared function is open. -/
def invokeWatched (ev : Evaluator) (safe : Machine → Bool) (alarm : Halt) (callee : Value)
    (receiver : Option Value) (args : List Value) (scope : FrameRef) (span : Span) : Run Value := do
  match callee with
  | .function ref =>
    let function ← Run.read fun heap => heap.function ref
    match function.body with
    | .builtin builtin => Run.orAt span (ev.runBuiltin builtin args scope span)
    | .closure decl closure =>
      Run.deeper span
        (Run.watched safe alarm (ev.activate function.name decl closure receiver args span))
  | other => Run.fail (.notCallable other.type) span

/-- The evaluator that watches every evaluation, every call and every body of a
function at its start and at its end. -/
def watched (safe : Machine → Bool) (alarm : Halt) : Nat → Evaluator
  | 0 => exhausted
  | fuel + 1 =>
    { fuel := fuel
      eval := fun expr scope =>
        Run.watched safe alarm ((watched safe alarm fuel).expression expr scope)
      exec := fun stmt scope =>
        Run.watched safe alarm ((watched safe alarm fuel).statement stmt scope)
      call := fun callee receiver args scope span => Run.watched safe alarm
        ((watched safe alarm fuel).invokeWatched safe alarm callee receiver args scope span) }

/-- The evaluator that watches only the calls it is asked for. -/
def watchingCalls (ev : Evaluator) (safe : Machine → Bool) (alarm : Halt) : Evaluator :=
  { ev with
    call := fun callee receiver args scope span =>
      Run.watched safe alarm (ev.call callee receiver args scope span) }

end Evaluator

namespace Logic.Relates

variable {logic : Logic} {world machine : Machine} {α : Type} {first second : Run α}
  {result : Machine → α → Prop}

/-- Watching the second run makes no difference where evaluation is safe. -/
theorem watch {safe : Machine → Bool} (relates : logic.Relates world first second result)
    (alarm : Halt) (safely : ∀ machine, logic.leads machine machine → safe machine = true) :
    logic.Relates world first (Run.watched safe alarm second) result := by
  intro machine onward
  have concludes := relates machine onward
  have starts := safely machine (logic.self onward)
  have watched : safe (second.leaves machine) = true →
      Run.watched safe alarm second machine = second machine := Run.watched_eq alarm starts
  revert concludes
  cases first machine with
  | ok a after =>
      rintro ⟨further, good, same⟩
      have ends : safe (second.leaves machine) = true := by
        rw [Run.leaves, same]
        exact safely after (logic.self further)
      exact ⟨further, good, (watched ends).trans same⟩
  | error halt after =>
      rintro ⟨further, abandoned | ⟨ended, same⟩⟩
      · exact ⟨further, .inl abandoned⟩
      · have ends : safe (second.leaves machine) = true := by
          rw [Run.leaves, same]
          exact safely after (logic.self further)
        exact ⟨further, .inr ⟨ended, (watched ends).trans same⟩⟩

end Logic.Relates

namespace Law

/-- What evaluation does while the number of open calls is within its limit. -/
abbrev withinLimit (heap : Heap) : Law :=
  unrestricted heap fun limit depth => depth ≤ limit

variable {heap : Heap}

theorem withinLimit_safely (machine : Machine)
    (valid : (withinLimit heap).logic.leads machine machine) : machine.isWithinLimit = true :=
  decide_eq_true valid.1.calls

theorem withinLimit_deepens : (withinLimit heap).logic.Deepens (withinLimit heap).logic :=
  deepens fun _ _ below _ => below

theorem relates_invokeWatched {ev other : Evaluator} (alarm : Halt)
    (covers : (withinLimit heap).logic.Covers (fun _ => True) ev other) (world : Machine)
    (callee : Value) (receiver : Option Value) (args : List Value) (scope : FrameRef)
    (span : Span) :
    (withinLimit heap).logic.Relates world (ev.invoke callee receiver args scope span)
      (other.invokeWatched Machine.isWithinLimit alarm callee receiver args scope span)
      (withinLimit heap).logic.Held := by
  cases callee with
  | function ref =>
      refine .readThen fun machine onward => ?_
      cases body : (machine.heap.function ref).body with
      | builtin builtin => exact covers.runBuiltin trivial (fun _ _ _ => held) fun _ _ => held
      | closure decl closure =>
          intro after further
          have valid := (withinLimit heap).logic.self further
          refine withinLimit_deepens.concludes_deeper trivial valid ?_
          refine (withinLimit_deepens.activate covers (fun _ _ => trivial) trivial
            ?_ ?_ ?_ ?_).watch
            alarm withinLimit_safely
          · exact fun _ _ => trivial
          · exact False.elim
          · exact fun _ _ => held
          · exact fun _ _ => held
  | _ => exact .fail trivial rfl

/-- Watching for too many open calls changes no evaluation. -/
theorem covers_watched (heap : Heap) (alarm : Halt) :
    ∀ fuel, (withinLimit heap).logic.Covers (fun _ => True) (.ofFuel fuel)
      (.watched Machine.isWithinLimit alarm fuel)
  | 0 => Logic.covers_exhausted fun _ => trivial
  | fuel + 1 => by
      have covers := covers_watched heap alarm fuel
      have same : (Evaluator.watched Machine.isWithinLimit alarm fuel).fuel =
          (Evaluator.ofFuel fuel).fuel := by
        cases fuel <;> rfl
      exact
        { eval := fun _ inside =>
            (covers.expression inside trivial (fun _ _ => trivial) fun _ _ _ => trivial).watch alarm
              withinLimit_safely
          exec := fun _ admitted =>
            (covers.statement trivial (fun _ _ => trivial) admitted fun _ =>
              .inl ⟨fun _ => trivial, same.symm⟩).watch alarm withinLimit_safely
          call := fun _ _ _ _ =>
            (relates_invokeWatched alarm covers _ _ _ _ _ _).watch alarm withinLimit_safely
          known := fun _ _ => trivial
          parts := fun _ _ _ _ => trivial }

theorem withinLimit_admits {machine : Machine} {stmt : Stmt} {scope : FrameRef} :
    (withinLimit heap).logic.Admits machine stmt scope :=
  admits_of_declares (fun _ => trivial) trivial

end Law

/-! ## The event loop -/

namespace Run

variable {α : Type}

/-- The run ends in the context that it starts in, whether it fails or not. -/
def KeepsContext (run : Run α) (machine : Machine) : Prop :=
  (run.leaves machine).context = machine.context

/-- Two runs that start in the context do the same and come back to it. -/
def AgreesIn (context : Nat × Option ClassRef) (first second : Run α) : Prop :=
  ∀ machine, machine.context = context →
    second machine = first machine ∧ (first.leaves machine).context = context

namespace AgreesIn

variable {β : Type} {context : Nat × Option ClassRef} {first second : Run α}

theorem bind {next other : α → Run β} (agrees : AgreesIn context first second)
    (rest : ∀ a, AgreesIn context (next a) (other a)) :
    AgreesIn context (first >>= next) (second >>= other) := by
  intro machine entered
  obtain ⟨same, back⟩ := agrees machine entered
  show EStateM.bind second other machine = EStateM.bind first next machine ∧
    (Run.leaves (EStateM.bind first next) machine).context = context
  simp only [Run.leaves, EStateM.bind, same] at back ⊢
  revert back
  cases first machine with
  | ok a after => exact rest a after
  | error halt after => exact fun back => ⟨rfl, back⟩

theorem schedule {f : Scheduler Value → α × Scheduler Value} :
    AgreesIn context (Run.schedule f) (Run.schedule f) :=
  fun _ entered => ⟨rfl, entered⟩

theorem note {event : Event} : AgreesIn context (Run.note event) (Run.note event) :=
  fun _ entered => ⟨rfl, entered⟩

end AgreesIn

end Run

namespace Evaluator

variable {ev : Evaluator}

theorem runCallback_keepsContext
    (keeps : ∀ callee args scope span machine,
      (ev.call callee none args scope span).KeepsContext machine)
    (job : Job) (task : Task Value) (machine : Machine) :
    (ev.runCallback job task).KeepsContext machine := by
  have kept := keeps task.callback task.arguments machine.globals .builtin machine
  unfold Run.KeepsContext Run.leaves at kept ⊢
  rw [runCallback_apply]
  revert kept
  cases ev.call task.callback none task.arguments machine.globals .builtin machine with
  | ok value after => exact id
  | error halt after => cases halt <;> exact id

theorem runCallback_watchingCalls
    (keeps : ∀ callee args scope span machine,
      (ev.call callee none args scope span).KeepsContext machine)
    (context : Nat × Option ClassRef) (alarm : Halt) (job : Job) (task : Task Value) :
    Run.AgreesIn context (ev.runCallback job task)
      ((ev.watchingCalls (·.context = context) alarm).runCallback job task) := by
  intro machine entered
  have kept := keeps task.callback task.arguments machine.globals .builtin machine
  refine ⟨?_, (runCallback_keepsContext keeps job task machine).trans entered⟩
  rw [runCallback_apply, runCallback_apply]
  simp only [watchingCalls]
  rw [Run.watched_eq alarm (decide_eq_true entered) (decide_eq_true (kept.trans entered))]

/-- The callbacks of the event loop start and end in the context that the loop was
entered in, and so does the loop. -/
theorem drainFrom_watchingCalls
    (keeps : ∀ callee args scope span machine,
      (ev.call callee none args scope span).KeepsContext machine)
    (context : Nat × Option ClassRef) (alarm : Halt) :
    ∀ fuel executed : Nat, Run.AgreesIn context (ev.drainFrom fuel executed)
      ((ev.watchingCalls (·.context = context) alarm).drainFrom fuel executed)
  | 0, _ => fun _ entered => ⟨rfl, entered⟩
  | fuel + 1, executed => by
      have rest := drainFrom_watchingCalls keeps context alarm fuel
      refine .bind .schedule fun next => ?_
      cases next with
      | none => exact .note
      | some job =>
          refine .bind .schedule fun taken => ?_
          cases taken with
          | none => exact rest executed
          | some task =>
              dsimp only
              split
              · exact rest executed
              · exact .bind (runCallback_watchingCalls keeps context alarm job task) fun _ =>
                  rest (executed + 1)

/-! ## Evaluation -/

/-- Every evaluation that starts on the machine ends in the context it started in. -/
structure RestoresContext (ev : Evaluator) (machine : Machine) : Prop where
  eval : ∀ expr scope, (ev.eval expr scope).KeepsContext machine
  exec : ∀ stmt scope, (ev.exec stmt scope).KeepsContext machine
  call : ∀ callee receiver args scope span,
    (ev.call callee receiver args scope span).KeepsContext machine
  construct : ∀ cls args scope span, (ev.construct cls args scope span).KeepsContext machine
  constructFrom : ∀ cls args scope span, (ev.constructFrom cls args scope span).KeepsContext machine
  delete : ∀ target args scope span, (ev.delete target args scope span).KeepsContext machine

/-- All evaluations that start on the machine are the same. -/
structure SameOn (machine : Machine) (ev other : Evaluator) : Prop where
  eval : ∀ expr scope, other.eval expr scope machine = ev.eval expr scope machine
  exec : ∀ stmt scope, other.exec stmt scope machine = ev.exec stmt scope machine
  call : ∀ callee receiver args scope span,
    other.call callee receiver args scope span machine =
      ev.call callee receiver args scope span machine
  construct : ∀ cls args scope span,
    other.construct cls args scope span machine = ev.construct cls args scope span machine
  constructFrom : ∀ cls args scope span,
    other.constructFrom cls args scope span machine = ev.constructFrom cls args scope span machine
  delete : ∀ target args scope span,
    other.delete target args scope span machine = ev.delete target args scope span machine

theorem ofFuel_restoresContext (fuel : Nat) (machine : Machine) :
    (ofFuel fuel).RestoresContext machine := by
  let law := Law.unrestricted machine.heap fun _ _ => True
  have covers := law.covers_ofFuel trivial (fun _ _ _ _ => trivial) fuel
  have kept : ∀ {run : Run Value}, law.logic.Relates machine run run law.logic.Held →
      run.KeepsContext machine :=
    fun relates => (Law.evolves relates ⟨.refl, trivial⟩).context
  have held : ∀ {value : Value}, law.logic.Held machine value := Law.held
  exact
    { eval := fun _ _ => kept (covers.eval trivial trivial)
      exec := fun stmt scope => by
        have admitted : law.logic.Admits machine stmt scope :=
          Law.admits_of_declares (fun _ => trivial) trivial
        exact (Law.evolves (covers.exec trivial admitted) ⟨.refl, trivial⟩).context
      call := fun _ _ _ _ _ => kept (Law.relates_call covers)
      construct := fun _ _ _ _ => kept (covers.construct trivial held (fun _ _ => held) fun _ => id)
      constructFrom := fun _ _ _ _ =>
        kept (covers.constructFrom trivial trivial (fun _ _ => trivial) held fun _ => id)
      delete := fun _ _ _ _ => kept (covers.delete trivial trivial held fun _ _ => held) }

theorem sameOn_watched (fuel : Nat) (alarm : Halt) {machine : Machine}
    (within : machine.callDepth ≤ machine.settings.maxCallDepth) :
    SameOn machine (ofFuel fuel) (watched Machine.isWithinLimit alarm fuel) := by
  let law := Law.withinLimit machine.heap
  have covers : law.logic.Covers (fun _ => True) (ofFuel fuel)
      (watched Machine.isWithinLimit alarm fuel) := Law.covers_watched machine.heap alarm fuel
  have same : ∀ {α : Type} {first second : Run α} {result : Machine → α → Prop},
      law.logic.Relates machine first second result → second machine = first machine :=
    fun relates => relates.eq ⟨⟨.refl, within⟩, .refl machine⟩ fun _ => id
  have held : ∀ {value : Value}, law.logic.Held machine value := Law.held
  exact
    { eval := fun _ _ => same (covers.eval trivial trivial)
      exec := fun _ _ => same (covers.exec trivial Law.withinLimit_admits)
      call := fun _ _ _ _ _ => same (Law.relates_call covers)
      construct := fun _ _ _ _ =>
        same (covers.construct trivial held (fun _ _ => held) fun _ _ => trivial)
      constructFrom := fun _ _ _ _ =>
        same (covers.constructFrom trivial trivial (fun _ _ => trivial) held fun _ _ => trivial)
      delete := fun _ _ _ _ => same (covers.delete trivial trivial held fun _ _ => held) }

/-- At the limit of open calls a declared function is refused before anything is done. -/
theorem call_of_full (fuel : Nat) {machine : Machine} {ref : FunctionRef} {decl : FunctionDecl}
    {closure : FrameRef} (declared : (machine.heap.function ref).body = .closure decl closure)
    (full : machine.settings.maxCallDepth ≤ machine.callDepth) (receiver : Option Value)
    (args : List Value) (scope : FrameRef) (span : Span) :
    (ofFuel (fuel + 1)).call (.function ref) receiver args scope span machine =
      .error (.fault ⟨.callDepth machine.settings.maxCallDepth, span⟩) machine := by
  rw [call_ofFuel_succ, invoke_function, declared]
  exact if_pos full

/-- Evaluation restores the context of calls and never opens more of them than it
may, and all callbacks of an event loop start in the context of the loop. -/
theorem call_context (fuel : Nat) (machine : Machine)
    (within : machine.callDepth ≤ machine.settings.maxCallDepth) :
    (ofFuel fuel).RestoresContext machine ∧
    (∀ alarm, SameOn machine (ofFuel fuel) (watched Machine.isWithinLimit alarm fuel)) ∧
    (∀ (state : Machine) (ref : FunctionRef) (decl : FunctionDecl) (closure : FrameRef)
      (receiver : Option Value) (args : List Value) (scope : FrameRef) (span : Span),
      (state.heap.function ref).body = .closure decl closure →
      state.settings.maxCallDepth ≤ state.callDepth →
      (ofFuel (fuel + 1)).call (.function ref) receiver args scope span state =
        .error (.fault ⟨.callDepth state.settings.maxCallDepth, span⟩) state) ∧
    (∀ alarm, ((ofFuel fuel).watchingCalls (·.context = machine.context) alarm).drain machine =
      (ofFuel fuel).drain machine) ∧
    (ofFuel fuel).drain.KeepsContext machine := by
  have keeps : ∀ callee args scope span machine,
      ((ofFuel fuel).call callee none args scope span).KeepsContext machine :=
    fun callee args scope span machine =>
      (ofFuel_restoresContext fuel machine).call callee none args scope span
  have loop := fun alarm =>
    drainFrom_watchingCalls keeps machine.context alarm (ofFuel fuel).fuel 0 machine rfl
  refine ⟨ofFuel_restoresContext fuel machine, ?_, ?_, fun alarm => (loop alarm).1, ?_⟩
  · exact fun alarm => sameOn_watched fuel alarm within
  · intro state ref decl closure receiver args scope span declared full
    exact call_of_full fuel declared full receiver args scope span
  · exact (loop .exhausted).2

/-- The constructor of a class runs in two open calls, and only one more call may be opened. -/
def constructingDeep : Machine :=
  let start := Machine.bare { maxCallDepth := 3 } none
  let (cls, heap) := start.heap.allocClass default
  { start with heap, callDepth := 2, constructing := some cls }

/-- Whatever is evaluated there comes back to the two calls and to the class, and never opens
more than three calls. -/
theorem call_context_constructingDeep :
    constructingDeep.callDepth + 1 = constructingDeep.settings.maxCallDepth ∧
      constructingDeep.context = (2, some ⟨0⟩) ∧
      (ofFuel 9).RestoresContext constructingDeep ∧
      (∀ alarm,
        SameOn constructingDeep (ofFuel 9) (watched Machine.isWithinLimit alarm 9)) ∧
      (ofFuel 9).drain.KeepsContext constructingDeep := by
  have within : constructingDeep.callDepth ≤ constructingDeep.settings.maxCallDepth := by decide
  obtain ⟨restores, same, -, -, loop⟩ := call_context 9 constructingDeep within
  exact ⟨rfl, rfl, restores, same, loop⟩

end Evaluator

end Hati
