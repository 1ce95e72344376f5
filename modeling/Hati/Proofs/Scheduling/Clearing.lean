import Hati.Interpreter
import Hati.Proofs.Scheduling.Bookkeeping

namespace Hati

/-!
# Clearing a number that belongs to no timer

Timers and queued callbacks draw their numbers from one counter and keep their callbacks in
one table.  Clearing a number empties its place in the table before it looks for a timer.
With a number that was never given out nothing is there to lose.  With the number of a
queued callback the callback is lost, although the answer is that there was no timer; the
job stays in the queue and leads nowhere.

What is said here holds of all interleavings, also of those in which numbers of any kind
were cleared before.
-/

namespace Scheduler

variable {α : Type}

/-! ## Clearing without a timer -/

theorem cancel_of_no_timer {scheduler : Scheduler α} {id : Nat}
    (absent : ∀ timer ∈ scheduler.timers, timer.id ≠ id) :
    scheduler.cancel id = (false, scheduler.dropTask id) := by
  have unfound : scheduler.timer? id = none := by
    apply List.find?_eq_none.mpr
    intro timer live found
    exact absent timer live (eq_of_beq found)
  have unmarked : scheduler.timers.map (fun timer =>
      if timer.id == id && timer.cancelledAt.isNone then
        { timer with cancelledAt := some scheduler.now }
      else timer) = scheduler.timers := by
    refine (List.map_congr_left fun timer live => ?_).trans (List.map_id scheduler.timers)
    rw [beq_false_of_ne (absent timer live), Bool.false_and]
    rfl
  unfold cancel
  rw [unfound, unmarked]
  rfl

/-- Emptying a place of the table changes nothing exactly if it is empty already. -/
theorem dropTask_eq_self_iff (scheduler : Scheduler α) (id : Nat) :
    scheduler.dropTask id = scheduler ↔ scheduler.task? id = none := by
  constructor
  · intro same
    rw [← same, task?_dropTask, if_pos rfl]
  · intro absent
    have kept : scheduler.tasks.filter (fun entry => entry.1 != id) = scheduler.tasks := by
      apply List.filter_eq_self.mpr
      intro entry member
      have unlike := List.lookup_eq_none_iff.mp absent entry member
      exact bne_comm.trans unlike
    rw [dropTask, kept]

/-! ## Which callbacks wait -/

/-- The callback was queued under the number, and no step since then has taken it out of
the table. -/
def Waits (past : List (Act α)) (id : Nat) (task : Task α) : Prop :=
  ∃ before after, past = before ++ .enqueue id task :: after ∧
    ∀ act ∈ after, ¬ act.Withdraws id

theorem waits_snoc {past : List (Act α)} {act : Act α} {id : Nat} {task : Task α} :
    Waits (past ++ [act]) id task ↔
      Waits past id task ∧ ¬ act.Withdraws id ∨ act = .enqueue id task := by
  constructor
  · rintro ⟨before, after, split, kept⟩
    rcases List.eq_nil_or_concat after with last | ⟨rest, final, longer⟩
    · subst last
      rcases List.append_inj' split rfl with ⟨-, same⟩
      exact .inr (List.cons.inj same).1
    · rw [List.concat_eq_append] at longer
      subst longer
      rw [← List.cons_append, ← List.append_assoc] at split
      rcases List.append_inj' split rfl with ⟨earlier, same⟩
      rw [(List.cons.inj same).1]
      refine .inl ⟨⟨before, rest, earlier, fun other member => ?_⟩, ?_⟩
      · exact kept other (List.mem_append_left _ member)
      · exact kept final (List.mem_append_right _ List.mem_cons_self)
  · rintro (⟨⟨before, after, rfl, kept⟩, stays⟩ | rfl)
    · refine ⟨before, after ++ [act], by simp, fun other member => ?_⟩
      rcases List.mem_append.mp member with earlier | last
      · exact kept other earlier
      · rw [List.mem_singleton.mp last]
        exact stays
    · exact ⟨past, [], rfl, fun _ impossible => absurd impossible List.not_mem_nil⟩

/-- Where no timer has the number, a step that withdraws the callback leaves none. -/
theorem Step.task?_of_withdrawn {before after : Snapshot α} {act : Act α}
    (step : Step before act after) {id : Nat} (withdraws : act.Withdraws id)
    (absent : ∀ timer ∈ before.scheduler.timers, timer.id ≠ id) :
    after.scheduler.task? id = none := by
  cases step with
  | cancel other =>
      have same : other = id := withdraws
      rw [task?_cancel, if_pos same.symm]
  | take job =>
      have same : job.number = id := withdraws
      rcases before.scheduler.take_cases job with dropped | ⟨-, timer, live, fired, -⟩
      · rw [dropped, task?_dropTask, if_pos same.symm]
      · subst fired
        exact absurd same (absent timer live)
  | shutdown => rfl
  | _ => exact False.elim withdraws

namespace Runs

variable {allowed : List (Act α) → Snapshot α → Act α → Prop} {sliceMillis : Nat}
  {past : List (Act α)} {now : Snapshot α}

/-- Under a number that no timer got, the table holds the callback that waits. -/
theorem task?_iff_waits (run : Runs allowed sliceMillis past now) {id : Nat}
    (unarmed : ∀ task repeats, .arm id task repeats ∉ past) (task : Task α) :
    now.scheduler.task? id = some task ↔ Waits past id task := by
  induction run with
  | start =>
      constructor
      · intro impossible
        cases impossible
      · rintro ⟨before, after, split, -⟩
        cases before <;> cases split
  | @step past before after act run step admitted ih =>
      have earlier : ∀ other repeats, .arm id other repeats ∉ past := fun other repeats armed =>
        unarmed other repeats (List.mem_append_left _ armed)
      have absent : ∀ timer ∈ before.scheduler.timers, timer.id ≠ id := by
        intro timer live same
        rcases run.armed timer live with ⟨other, armed⟩
        exact earlier other _ (same ▸ armed)
      rw [waits_snoc, ← ih earlier]
      constructor
      · intro found
        rcases step.task?_cases id with same | ⟨gone, -⟩ | ⟨new, next, added, issues⟩
        · refine .inl ⟨same ▸ found, fun withdraws => ?_⟩
          rw [step.task?_of_withdrawn withdraws absent] at found
          cases found
        · rw [gone] at found
          cases found
        · -- The number was not in use, so the callback is the one that the step has added.
          rw [next, run.task?_nextId, ← next, found] at added
          cases added
          rcases issues with queued | ⟨repeats, armed⟩
          · exact .inr queued
          · exact absurd (armed ▸ List.mem_append_right past List.mem_cons_self)
              (unarmed task repeats)
      · rintro (⟨found, stays⟩ | rfl)
        · rcases run.task_issued found with ⟨act, member, gives⟩
          have issued := run.numbered.below act member id gives
          rcases step.task?_of_issued issued with same | ⟨-, withdraws⟩
          · rw [same, found]
          · exact absurd withdraws stays
        · cases step with
          | enqueue =>
              show (before.scheduler.enqueue task).2.task? before.scheduler.nextId = some task
              rw [task?_enqueue, run.task?_nextId, if_pos rfl, Option.none_or]

end Runs

/-! ## What clearing such a number does -/

/-- Clearing a number that no timer got, after these steps. -/
structure ClearsNoTimer (past : List (Act α)) (scheduler : Scheduler α) (id : Nat) : Prop where
  /-- There was no timer. -/
  answer : (scheduler.cancel id).1 = false
  queue : (scheduler.cancel id).2.queue = scheduler.queue
  timers : (scheduler.cancel id).2.timers = scheduler.timers
  /-- In the table of callbacks the place of the number is empty afterwards, and no other
  place has changed. -/
  callbacks : ∀ other, (scheduler.cancel id).2.task? other =
    if other = id then none else scheduler.task? other
  /-- A callback is lost exactly if it was queued under the number and still waits. -/
  loses : ∀ task, scheduler.task? id = some task ↔ Waits past id task
  /-- So the scheduler changes exactly if one waits under the number, -/
  changes : (scheduler.cancel id).2 ≠ scheduler ↔ ∃ task, Waits past id task
  /-- and it does not change if the number was never given out. -/
  unissued : (∀ act ∈ past, act.issued? ≠ some id) → (scheduler.cancel id).2 = scheduler

theorem Runs.clearsNoTimer {allowed : List (Act α) → Snapshot α → Act α → Prop}
    {sliceMillis : Nat} {past : List (Act α)} {now : Snapshot α}
    (run : Runs allowed sliceMillis past now) {id : Nat}
    (unarmed : ∀ task repeats, .arm id task repeats ∉ past) :
    ClearsNoTimer past now.scheduler id := by
  have waits := run.task?_iff_waits unarmed
  have cleared : now.scheduler.cancel id = (false, now.scheduler.dropTask id) := by
    apply cancel_of_no_timer
    intro timer live same
    rcases run.armed timer live with ⟨task, armed⟩
    exact unarmed task _ (same ▸ armed)
  have changes : (now.scheduler.cancel id).2 ≠ now.scheduler ↔ ∃ task, Waits past id task := by
    rw [cleared, ne_eq, dropTask_eq_self_iff, ← ne_eq, Option.ne_none_iff_exists']
    exact exists_congr waits
  exact {
    answer := congrArg Prod.fst cleared
    queue := rfl
    timers := by rw [cleared, dropTask]
    callbacks := task?_cancel now.scheduler id
    loses := waits
    changes
    unissued := fun unknown => by
      refine Classical.byContradiction fun changed => ?_
      rcases changes.mp changed with ⟨task, before, after, rfl, -⟩
      exact unknown _ (List.mem_append_right before List.mem_cons_self) rfl }

end Scheduler

/-! ## The functions that clear timers -/

namespace GlobalFunction

/-- The functions that a program clears timers with. -/
def Clears (function : GlobalFunction) : Prop :=
  function = .clearTimeout ∨ function = .clearInterval

end GlobalFunction

/-- Clearing a number that names no timer, by a function of the language. -/
theorem Evaluator.runGlobal_of_cancel {ev : Evaluator} {function : GlobalFunction}
    (clears : function.Clears) {args : List Value} {id : Nat} (named : timerId args = .ok id)
    (scope : FrameRef) (span : Span) {machine : Machine} {scheduler : Scheduler Value}
    (cancelled : machine.scheduler.cancel id = (false, scheduler)) :
    ev.runGlobal function args scope span machine =
      .ok (.bool false) { machine with scheduler } := by
  have asked : ev.runGlobal function args scope span =
      (Run.lift span (timerId args) >>= Run.cancelTimer) := by
    rcases clears with rfl | rfl <;> rfl
  have answered : Run.schedule (fun scheduler => scheduler.cancel id) machine =
      .ok false { machine with scheduler } := by
    show EStateM.Result.ok (machine.scheduler.cancel id).1
      { machine with scheduler := (machine.scheduler.cancel id).2 } = _
    rw [cancelled]
  rw [asked, named]
  show Run.cancelTimer id machine = _
  simp only [Run.cancelTimer, Bind.bind, EStateM.bind, answered]
  rfl

namespace Scheduler

variable {allowed : List (Act Value) → Snapshot Value → Act Value → Prop} {sliceMillis : Nat}
  {past : List (Act Value)} {now : Snapshot Value}

/-- However the parties have interleaved, a number that no timer got names at most a callback
that was queued and still waits.  Clearing it answers that there was no timer, and takes
nothing but this callback. -/
theorem Runs.clearing_loses (run : Runs allowed sliceMillis past now) {id : Nat}
    (unarmed : ∀ task repeats, .arm id task repeats ∉ past) :
    ClearsNoTimer past now.scheduler id ∧
      ∀ (ev : Evaluator) (function : GlobalFunction) (args : List Value) (scope : FrameRef)
        (span : Span) (machine : Machine), machine.scheduler = now.scheduler →
        function.Clears → timerId args = .ok id →
        ev.runGlobal function args scope span machine =
          .ok (.bool false) { machine with scheduler := (now.scheduler.cancel id).2 } := by
  have cleared := run.clearsNoTimer unarmed
  refine ⟨cleared, ?_⟩
  intro ev function args scope span machine same clears named
  refine ev.runGlobal_of_cancel clears named scope span ?_
  rw [same]
  exact Prod.ext cleared.answer rfl

/-- A callback is queued after a timer was armed, and the program clears its number. -/
theorem Runs.clearing_loses_queued : ∃ now : Snapshot Value,
    Runs Orderly 5 [.arm 1 ⟨.null, []⟩ false, .enqueue 2 ⟨.bool true, []⟩] now ∧
    now.scheduler.queue = [.immediate 2] ∧ now.scheduler.task? 2 = some ⟨.bool true, []⟩ ∧
    ((now.scheduler.cancel 2).2.take (.immediate 2)).1 = none ∧
    (Evaluator.ofFuel 1).runGlobal .clearTimeout [.number 2] ⟨0⟩ {}
        { scheduler := now.scheduler } =
      EStateM.Result.ok (.bool false) { scheduler := (now.scheduler.cancel 2).2 } := by
  have fresh : Runs Orderly 5 [] { scheduler := (new 5 : Scheduler Value) } := .start
  have armed := fresh.step (.arm _ 9 ⟨.null, []⟩ false) trivial
  have queued := armed.step (.enqueue _ ⟨.bool true, []⟩) trivial
  have named : timerId [.number 2] = .ok 2 := by rfl
  have unarmed : ∀ (task : Task Value) (repeats : Bool), Act.arm 2 task repeats ∉
      [Act.arm 1 ⟨Value.null, []⟩ false, Act.enqueue 2 ⟨.bool true, []⟩] := by
    intro task repeats member
    rcases List.mem_cons.mp member with same | member
    · cases same
    · cases List.mem_singleton.mp member
  have clearing := queued.clearing_loses unarmed
  refine ⟨_, queued, rfl, rfl, ?_, ?_⟩
  · exact (clearing.1.callbacks 2).trans (if_pos rfl)
  · exact clearing.2 _ _ _ _ _ { scheduler := _ } rfl (.inl rfl) named

end Scheduler

end Hati
