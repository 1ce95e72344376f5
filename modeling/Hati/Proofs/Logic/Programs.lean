import Hati.Interpreter
import Hati.Proofs.Logic.Statements

namespace Hati

/-!
# Programs and the machine they start on

A program is executed in the outermost scope, one statement after another.  Callbacks are
called by the event loop, from no place in a program, and their faults do not end the loop
but go to the journal.  A new machine is a bare one on which the outermost scope has been
filled.
-/

namespace Scheduler

variable {α : Type}

theorem wake_tasks (scheduler : Scheduler α) (timer : Timer) :
    (scheduler.wake timer).tasks = scheduler.tasks := by
  unfold wake
  dsimp only
  split <;> rfl

theorem nextWithin_tasks : ∀ (rounds : Nat) (scheduler : Scheduler α),
    (nextWithin rounds scheduler).2.tasks = scheduler.tasks := by
  intro rounds
  induction rounds with
  | zero =>
      intro scheduler
      unfold nextWithin
      split <;> rfl
  | succ rounds ih =>
      intro scheduler
      unfold nextWithin
      cases scheduler.queue with
      | cons job queue => rfl
      | nil =>
          cases scheduler.earliest? with
          | none => rfl
          | some timer => exact (ih _).trans (wake_tasks scheduler timer)

/-- Taking a callback keeps none that was not there, and gives one that was. -/
theorem take_tasks (scheduler : Scheduler α) (job : Job) :
    (∀ entry ∈ (scheduler.take job).2.tasks, entry ∈ scheduler.tasks) ∧
      ∀ task ∈ (scheduler.take job).1, ∃ id, (id, task) ∈ scheduler.tasks := by
  have found : ∀ id, ∀ task ∈ scheduler.task? id, ∃ id, (id, task) ∈ scheduler.tasks := by
    intro id task found
    rcases List.lookup_eq_some_iff.mp found with ⟨before, after, split, -⟩
    exact ⟨id, split ▸ List.mem_append_right before List.mem_cons_self⟩
  have dropped : ∀ id, ∀ entry ∈ (scheduler.dropTask id).tasks, entry ∈ scheduler.tasks :=
    fun id entry member => (List.mem_filter.mp member).1
  cases job with
  | immediate id => exact ⟨dropped id, found id⟩
  | timerFired id =>
      unfold take
      dsimp only
      split
      · exact ⟨fun _ member => member, found id⟩
      · exact ⟨dropped id, found id⟩

end Scheduler

namespace Evaluator

/-- A handler takes over where the run that it watches has failed. -/
theorem tryCatch_discard_apply (run : Run Value) (handle : Halt → Run Unit) (machine : Machine) :
    EStateM.tryCatch (discard run) handle machine =
      match run machine with
      | .ok _ after => .ok () after
      | .error halt after => handle halt after := by
  delta EStateM.tryCatch
  simp only [discard, Functor.mapConst, EStateM.map, Function.comp_def]
  cases run machine <;> rfl

theorem runCallback_apply (ev : Evaluator) (job : Job) (task : Task Value) (machine : Machine) :
    ev.runCallback job task machine =
      match ev.call task.callback none task.arguments machine.globals .builtin machine with
      | .ok _ after => .ok () after
      | .error (.fault fault) after => Run.note (.callbackFailed fault job) after
      | .error halt after => .error halt after := by
  refine (tryCatch_discard_apply _ _ machine).trans ?_
  cases ev.call task.callback none task.arguments machine.globals .builtin machine with
  | ok value after => rfl
  | error halt after => cases halt <;> rfl

end Evaluator

/-- What a host asks an interpreter to do. -/
inductive Request where
  | execute (program : List Stmt)
  | eval (expr : Expr) (scope : FrameRef)
  | exec (stmt : Stmt) (scope : FrameRef)
  | call (callee : Value) (receiver : Option Value) (args : List Value) (scope : FrameRef)
    (span : Span)
  | construct (cls : ClassRef) (args : List Value) (scope : FrameRef) (span : Span)
  | delete (target : Value) (args : List Value) (scope : FrameRef) (span : Span)
  /-- Some rounds of the event loop, after it has executed some callbacks. -/
  | drain (rounds executed : Nat)

/-- The code that is handed in with a request. -/
def Request.code : Request → List Code
  | execute program => program.map .stmt
  | eval expr _ => [.expr expr]
  | exec stmt _ => [.stmt stmt]
  | call .. | construct .. | delete .. | drain .. => []

/-- What is asked for; only the machine that is left behind matters here. -/
def Request.run (ev : Evaluator) : Request → Run Unit
  | execute program => do let _ ← ev.execute program
  | eval expr scope => do let _ ← ev.eval expr scope
  | exec stmt scope => do let _ ← ev.exec stmt scope
  | call callee receiver args scope span => do let _ ← ev.call callee receiver args scope span
  | construct cls args scope span => do let _ ← ev.construct cls args scope span
  | delete target args scope span => do let _ ← ev.delete target args scope span
  | drain rounds executed => ev.drainFrom rounds executed

/-- A new machine is what filling the outermost scope of a bare one leaves behind. -/
theorem Machine.new_eq_leaves (settings : Settings) (outputLimit : Option Nat)
    (threads : ThreadPolicy) :
    new settings outputLimit threads =
      (Run.installGlobals (bare settings outputLimit threads).globals).leaves
        (bare settings outputLimit threads) := by
  simp only [new, Run.leaves, EStateM.run]
  generalize Run.installGlobals (bare settings outputLimit threads).globals
    (bare settings outputLimit threads) = result
  cases result <;> rfl

namespace Logic

variable {logic : Logic} {world machine after : Machine}

namespace Covers

variable {asked : Code → Prop} {ev other : Evaluator} {scope : FrameRef}

/-! ## Programs -/

/-- A program may end with a jump only where that jump strays in one of its statements. -/
theorem executeIn (covers : logic.Covers asked ev other) (program : List Stmt) :
    ∀ {world : Machine}, (∀ stmt ∈ program, asked (.stmt stmt)) →
      (∀ stmt ∈ program, logic.Admits world stmt scope) →
      (∀ stmt ∈ program, ∀ jump, stmt.Strays jump →
        logic.ends (.fault ⟨.strayJump, stmt.span⟩)) →
      logic.Relates world (ev.executeIn scope program) (other.executeIn scope program)
        logic.Held := by
  induction program with
  | nil => exact fun _ _ _ => .value (held_of_isCopied trivial)
  | cons stmt rest ih =>
      intro world known admitted ends
      have first := covers.exec (known stmt List.mem_cons_self) (admitted stmt List.mem_cons_self)
      have stray := ends stmt List.mem_cons_self
      refine first.bind fun after signal onward signals => ?_
      cases signal with
      | proceed =>
          refine ih (fun other member => known other (List.mem_cons_of_mem stmt member))
            (fun other member => ?_)
            fun other member => ends other (List.mem_cons_of_mem stmt member)
          exact (admitted other (List.mem_cons_of_mem stmt member)).later onward
      | returned value => exact .value (signals.held value rfl)
      | broke => exact .halt (stray .break (signals.jumps .break rfl))
      | continued => exact .halt (stray .continue (signals.jumps .continue rfl))

theorem execute (covers : logic.Covers asked ev other) {program : List Stmt}
    (known : ∀ stmt ∈ program, asked (.stmt stmt))
    (admitted : ∀ machine, logic.leads world machine →
      ∀ stmt ∈ program, logic.Admits machine stmt machine.globals)
    (ends : ∀ stmt ∈ program, ∀ jump, stmt.Strays jump →
      logic.ends (.fault ⟨.strayJump, stmt.span⟩)) :
    logic.Relates world (ev.execute program) (other.execute program) logic.Held :=
  .getThen fun machine onward => covers.executeIn program known (admitted machine onward) ends

/-! ## Callbacks -/

section Callbacks

variable (covers : logic.Covers asked ev other) (anywhere : logic.place .builtin)
  (compared : ∀ fault, ¬ logic.abandons (.fault fault))
include covers anywhere compared

/-- A callback is called from no place in a program; its fault is noted. -/
theorem runCallback {job : Job} {task : Task Value} (held : logic.HeldTask world task) :
    logic.Relates world (ev.runCallback job task) (other.runCallback job task) := by
  intro machine onward
  have called : logic.Relates world
      (ev.call task.callback none task.arguments machine.globals .builtin)
      (other.call task.callback none task.arguments machine.globals .builtin) logic.Held :=
    covers.call anywhere held.1 (fun _ => nofun) held.2
  have concludes := called machine onward
  rw [Evaluator.runCallback_apply, Evaluator.runCallback_apply]
  revert concludes
  cases ev.call task.callback none task.arguments machine.globals .builtin machine with
  | ok value after =>
      rintro ⟨further, _, same⟩
      rw [same]
      exact ⟨further, trivial, rfl⟩
  | error halt after =>
      rintro ⟨further, ended⟩
      cases halt with
      | fault fault =>
          rcases ended.resolve_left (compared fault) with ⟨admitted, same⟩
          rw [same]
          have noted := logic.moves (logic.self further) (.report fault job admitted)
          exact ⟨logic.trans further noted, trivial, rfl⟩
      | _ =>
          refine ⟨further, ended.imp_right fun ended => ⟨ended.1, ?_⟩⟩
          rw [ended.2]

theorem drainFrom (exhausts : logic.ends .exhausted) :
    ∀ (rounds executed : Nat) {world : Machine},
      logic.Relates world (ev.drainFrom rounds executed) (other.drainFrom rounds executed)
  | 0, _, _ => .exhausted exhausts
  | rounds + 1, executed, world => by
      have next : logic.Relates world (Run.schedule Scheduler.next)
          (Run.schedule Scheduler.next) := by
        refine .schedules fun machine onward tracks => ?_
        have waiting := (logic.formed tracks (logic.self onward)).tasks
        exact (Scheduler.nextWithin_tasks _ machine.scheduler).symm ▸ waiting
      refine next.andThen fun job => ?_
      cases job with
      | none => exact .note
      | some job =>
          have taken : logic.Relates world (Run.schedule fun scheduler => scheduler.take job)
              (Run.schedule fun scheduler => scheduler.take job)
              fun machine found => ∀ task ∈ found, logic.HeldTask machine task := by
            apply Relates.schedule
            · intro machine onward tracks entry member
              have kept := (machine.scheduler.take_tasks job).1 entry member
              exact (logic.formed tracks (logic.self onward)).tasks entry kept
            · intro machine onward task found
              rcases (machine.scheduler.take_tasks job).2 task found with ⟨id, member⟩
              have waiting := fun tracks =>
                (logic.formed tracks (logic.self onward)).tasks (id, task) member
              exact ⟨fun tracks => (waiting tracks).1, fun item inTask tracks =>
                (waiting tracks).2 item inTask⟩
          refine taken.bind fun after found _ held => ?_
          cases found with
          | none => exact drainFrom exhausts rounds executed
          | some task =>
              dsimp only
              split
              · exact drainFrom exhausts rounds executed
              · refine (covers.runCallback anywhere compared (held task rfl)).andThen fun _ => ?_
                exact drainFrom exhausts rounds (executed + 1)

end Callbacks

/-! ## Requests -/

end Covers

/-- What is handed in with a request is known and held, and may be evaluated there. -/
def Grants (logic : Logic) (world : Machine) : Request → Prop
  | .execute program =>
    (∀ stmt ∈ program, logic.known (.code (.stmt stmt))) ∧
      (∀ machine, logic.leads world machine →
        ∀ stmt ∈ program, logic.Admits machine stmt machine.globals) ∧
      ∀ stmt ∈ program, ∀ jump, stmt.Strays jump → logic.ends (.fault ⟨.strayJump, stmt.span⟩)
  | .eval expr scope => logic.known (.code (.expr expr)) ∧ logic.evaluates world scope
  | .exec stmt scope => logic.known (.code (.stmt stmt)) ∧ logic.Admits world stmt scope
  | .call callee receiver args _ span =>
    logic.place span ∧ logic.Held world callee ∧ (∀ value ∈ receiver, logic.Held world value) ∧
      logic.HeldItems world args
  | .construct cls args _ span =>
    logic.place span ∧ logic.Held world (.class cls) ∧ logic.HeldItems world args
  | .delete target args _ span =>
    logic.place span ∧ logic.clears ∧ logic.Held world target ∧ logic.HeldItems world args
  | .drain .. =>
    logic.place .builtin ∧ logic.ends .exhausted ∧ ∀ fault, ¬ logic.abandons (.fault fault)

/-- Whatever is asked for, the logic holds of it. -/
theorem Covers.request {ev other : Evaluator} {request : Request}
    (covers : logic.Covers (fun code => logic.known (.code code)) ev other)
    (granted : logic.Grants world request) :
    logic.Relates world (request.run ev) (request.run other) := by
  have discarded : ∀ {α : Type} {first second : Run α} {result : Machine → α → Prop},
      logic.Relates world first second result →
        logic.Relates world (do let _ ← first) (do let _ ← second) :=
    fun relates => relates.bind fun _ _ _ _ => .done
  cases request with
  | execute program => exact discarded (covers.execute granted.1 granted.2.1 granted.2.2)
  | eval expr scope => exact discarded (covers.eval granted.1 granted.2)
  | exec stmt scope => exact discarded (covers.exec granted.1 granted.2)
  | call callee receiver args scope span =>
      rcases granted with ⟨here, calleeHeld, receiverHeld, argsHeld⟩
      exact discarded (covers.call here calleeHeld receiverHeld argsHeld)
  | construct cls args scope span =>
      rcases granted with ⟨here, clsHeld, argsHeld⟩
      exact discarded (covers.construct here clsHeld argsHeld fun _ known => known)
  | delete target args scope span =>
      rcases granted with ⟨here, permitted, targetHeld, argsHeld⟩
      exact discarded (covers.delete here permitted targetHeld argsHeld)
  | drain rounds executed =>
      rcases granted with ⟨anywhere, exhausts, compared⟩
      exact covers.drainFrom anywhere compared exhausts rounds executed

/-! ## A new machine -/

/-- A member of the outermost scope, or of an object there, is no class. -/
def HeldMember (logic : Logic) (machine : Machine) (member : String × Value) : Prop :=
  logic.Held machine member.2 ∧ member.2.type ≠ .class

theorem HeldMember.later {member : String × Value} (held : logic.HeldMember world member)
    (onward : logic.leads world after) : logic.HeldMember after member :=
  ⟨held.1.later onward, held.2⟩

theorem lasting_heldMember : logic.Lasting logic.HeldMember :=
  fun _ _ _ onward held => held.later onward

namespace Relates

theorem newGlobal {function : GlobalFunction} :
    logic.Relates world (Run.newGlobal function) (Run.newGlobal function) logic.HeldMember := by
  have allocated : logic.Relates world (Run.newFunction (.ofBuiltin (.global function)))
      (Run.newFunction (.ofBuiltin (.global function)))
      fun machine value => logic.Held machine value ∧ value.type ≠ .class := by
    intro machine onward
    have made : logic.Relates world (Run.newFunction (.ofBuiltin (.global function)))
        (Run.newFunction (.ofBuiltin (.global function))) logic.Held := newBuiltin nofun
    have fresh := made machine onward
    exact ⟨fresh.1, ⟨fresh.2.1, nofun⟩, fresh.2.2⟩
  refine allocated.bind fun _ _ _ held => pure fun _ onward => ?_
  exact ⟨held.1.later onward, held.2⟩

theorem newGlobals {functions : List GlobalFunction} :
    logic.Relates world (functions.mapM Run.newGlobal) (functions.mapM Run.newGlobal)
      fun machine members => ∀ member ∈ members, logic.HeldMember machine member :=
  mapM lasting_heldMember fun _ _ => newGlobal

section Scope

variable {scope : FrameRef} (declares : ∀ name, logic.declares scope name)
  {members : List (String × Value)}
include declares

theorem bindNamespace {name : String}
    (held : ∀ member ∈ members, logic.HeldMember world member) :
    logic.Relates world (Run.bindNamespace scope name members)
      (Run.bindNamespace scope name members) := by
  have object : logic.Relates world (Run.newObject (.ofPairs members))
      (Run.newObject (.ofPairs members))
      fun machine ref => logic.owns ref ∧ logic.Held machine (.object ref) := by
    refine newObject (Object.nodup_keys_ofPairs members) (fun entry member => ?_) fun _ => ?_
    · rcases Object.mem_entries_ofPairs member with ⟨pair, inPairs, same⟩
      exact same ▸ (held pair inPairs).1
    · exact Object.isUnlinked_ofPairs fun pair inPairs => (held pair inPairs).2
  exact object.bind fun _ _ _ fresh => declare (declares name) fresh.2

theorem bindAll (held : ∀ member ∈ members, logic.HeldMember world member) :
    logic.Relates world (Run.bindAll scope members) (Run.bindAll scope members) :=
  forM fun member inList => declare (declares member.1) (held member inList).1

end Scope

-- The run is closed, so unfolding what relates it to itself would carry it out.
attribute [local irreducible] Relates

theorem installGlobals {scope : FrameRef} (declares : ∀ name, logic.declares scope name) :
    logic.Relates world (Run.installGlobals scope) (Run.installGlobals scope) := by
  unfold Run.installGlobals
  refine bind newGlobals fun _ conversions _ held => andThen (bindAll declares held) fun _ => ?_
  refine bind newGlobals fun _ objects _ held => andThen (bindNamespace declares held) fun _ => ?_
  refine bind newGlobals fun _ json _ held => andThen (bindNamespace declares held) fun _ => ?_
  refine bind newGlobals fun _ process _ held => andThen (bindNamespace declares ?_) fun _ => ?_
  · intro member inList
    rcases List.mem_append.mp inList with inProcess | isVersion
    · exact held member inProcess
    · cases List.mem_singleton.mp isVersion
      exact ⟨held_of_isCopied trivial, nofun⟩
  refine bind newGlobals fun middle timers _ timersHeld => ?_
  refine bind newGlobals fun after queueing onward queueingHeld => ?_
  refine bind newGlobal fun final enqueue further enqueueHeld => ?_
  have later : ∀ member ∈ timers, logic.HeldMember final member := fun member inList =>
    ((timersHeld member inList).later onward).later further
  refine andThen (bindAll declares fun member inList => ?_) fun _ =>
    bindNamespace declares fun member inList => ?_
  · rcases List.mem_append.mp inList with inTimers | isEnqueue
    · exact later member inTimers
    · exact List.mem_singleton.mp isEnqueue ▸ enqueueHeld
  · rcases List.mem_append.mp inList with inTimers | inQueueing
    · exact later member inTimers
    · exact (queueingHeld member inQueueing).later further

/-- Evaluation comes from the bare machine to the new one. -/
theorem leads_new {settings : Settings} {outputLimit : Option Nat}
    {threads : ThreadPolicy} (declares : ∀ name, logic.declares ⟨0⟩ name)
    (valid :
      logic.leads (.bare settings outputLimit threads) (.bare settings outputLimit threads)) :
    logic.leads (.bare settings outputLimit threads) (.new settings outputLimit threads) := by
  rw [Machine.new_eq_leaves]
  exact (installGlobals declares).leaves valid

end Relates

end Logic

end Hati
