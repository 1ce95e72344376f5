import Hati.Proofs.Scheduling.Bookkeeping
import Hati.Proofs.Scheduling.Waiting

namespace Hati

/-!
# Jobs are delivered once and in order

The past of a run tells which jobs entered and left the queue, and what the event loop
was handed for them.  Callbacks that were queued by themselves are handed out in the order
in which they came in; the callback of a timer that does not repeat is handed out once at
most.  When the event loop is told that there is no job left, no callback has a reason to
be in the table any more, so nothing was left out.
-/

namespace Job

/-- The number of a callback that was queued by itself. -/
def immediate? : Job → Option Nat
  | immediate id => some id
  | timerFired _ => none

end Job

namespace Scheduler

variable {α : Type}

namespace Act

/-- The callback that a step queues, with its number. -/
def enqueued? : Act α → Option (Nat × Option (Task α))
  | enqueue id task => some (id, some task)
  | _ => none

/-- What the event loop is handed for a queued callback, with its number. -/
def handed? : Act α → Option (Nat × Option (Task α))
  | take (.immediate id) answer => some (id, answer)
  | _ => none

/-- The callback that the event loop is handed for a job of a timer. -/
def called? (id : Nat) : Act α → Option (Task α)
  | take (.timerFired other) answer => if other = id then answer else none
  | _ => none

theorem called?_eq_none {act : Act α} {id : Nat}
    (foreign : ¬ ∃ answer, act = .take (.timerFired id) answer) : act.called? id = none := by
  cases act with
  | take job answer =>
      cases job with
      | immediate other => rfl
      | timerFired other =>
          refine if_neg fun same => ?_
          exact foreign ⟨answer, by rw [same]⟩
  | _ => rfl

/-- Queueing a callback queues its job. -/
theorem immediate?_pushed? (act : Act α) :
    act.pushed?.toList.filterMap Job.immediate? = act.enqueued?.toList.map Prod.fst := by
  cases act <;> rfl

/-- Handing out a queued callback resolves its job. -/
theorem immediate?_resolved? (act : Act α) :
    act.resolved?.toList.filterMap Job.immediate? = act.handed?.toList.map Prod.fst := by
  cases act with
  | take job answer => cases job <;> rfl
  | _ => rfl

end Act

/-- What the past of an orderly run says about its jobs and callbacks. -/
structure Delivered (past : List (Act α)) (now : Snapshot α) : Prop where
  /-- Jobs leave the queue in the order in which they entered it. -/
  ordered : past.filterMap Act.popped? ++ now.scheduler.queue = past.filterMap Act.pushed?
  /-- Each job that left the queue is resolved, in the same order; at most the last is not. -/
  resolved : past.filterMap Act.resolved? ++ now.held.toList = past.filterMap Act.popped?
  /-- The queued callbacks are handed out as they were queued, up to those that wait. -/
  handed : past.filterMap Act.handed? <+: past.filterMap Act.enqueued?
  /-- No queued callback is there twice. -/
  apart : (past.filterMap Act.enqueued?).Pairwise fun first second => first.1 ≠ second.1
  /-- The callback of a timer that does not repeat is handed out once at most. -/
  once : ∀ id task, .arm id task false ∈ past →
    (past.filterMap (Act.called? id)).Sublist [task]

/-- Nothing is left to do, and nothing was left out. -/
structure Drained (past : List (Act α)) (now : Snapshot α) : Prop where
  queue : now.scheduler.queue = []
  timers : now.scheduler.timers = []
  tasks : now.scheduler.tasks = []
  handed : past.filterMap Act.handed? = past.filterMap Act.enqueued?
  /-- The callback of a timer that does not repeat was handed out, unless the timer was
  cancelled. -/
  called : ∀ id task, .arm id task false ∈ past → .cancel id ∉ past →
    past.filterMap (Act.called? id) = [task]

/-! ## Queued callbacks -/

namespace Runs

variable {sliceMillis : Nat} {past : List (Act α)} {now : Snapshot α}

theorem enqueued_origin {entry : Nat × Option (Task α)}
    (member : entry ∈ past.filterMap Act.enqueued?) :
    ∃ task, entry.2 = some task ∧ .enqueue entry.1 task ∈ past := by
  rcases List.mem_filterMap.mp member with ⟨act, earlier, gives⟩
  cases act with
  | enqueue id task =>
      cases gives
      exact ⟨task, rfl, earlier⟩
  | _ => cases gives

theorem enqueued_apart (run : Runs Orderly sliceMillis past now) :
    (past.filterMap Act.enqueued?).Pairwise fun first second => first.1 ≠ second.1 := by
  refine List.Pairwise.filterMap _ ?_ run.numbered.increasing
  intro act later above entry gives other givesOther
  cases act with
  | enqueue id task =>
      cases later with
      | enqueue number callback =>
          cases gives
          cases givesOther
          exact Nat.ne_of_lt (above id rfl number rfl)
      | _ => cases givesOther
  | _ => cases gives

end Runs

/-- The queued callbacks that were not handed out are in the table, and their jobs are
unresolved, in the same order. -/
structure Awaits (past : List (Act α)) (now : Snapshot α)
    (waiting : List (Nat × Option (Task α))) : Prop where
  split : past.filterMap Act.enqueued? = past.filterMap Act.handed? ++ waiting
  named : waiting.map Prod.fst = now.pending.filterMap Job.immediate?
  present : ∀ entry ∈ waiting, now.scheduler.task? entry.1 = entry.2

namespace Awaits

variable {sliceMillis : Nat} {past : List (Act α)} {before after : Snapshot α} {act : Act α}
  {waiting : List (Nat × Option (Task α))}

theorem origin (awaits : Awaits past before waiting) {entry : Nat × Option (Task α)}
    (member : entry ∈ waiting) : ∃ task, .enqueue entry.1 task ∈ past := by
  rcases Runs.enqueued_origin (awaits.split ▸ List.mem_append_right _ member) with ⟨task, -, queued⟩
  exact ⟨task, queued⟩

theorem not_armed (awaits : Awaits past before waiting) (run : Runs Orderly sliceMillis past before)
    {entry : Nat × Option (Task α)} (member : entry ∈ waiting) {task : Task α} {repeats : Bool} :
    .arm entry.1 task repeats ∉ past := by
  rcases awaits.origin member with ⟨queued, earlier⟩
  exact run.not_armed_of_enqueued earlier

theorem present_after (awaits : Awaits past before waiting)
    (run : Runs Orderly sliceMillis past before) (step : Step before act after)
    {entry : Nat × Option (Task α)} (member : entry ∈ waiting)
    (untouched : ¬ act.Withdraws entry.1) : after.scheduler.task? entry.1 = entry.2 := by
  rcases awaits.origin member with ⟨task, queued⟩
  rcases step.task?_of_issued (run.numbered.below _ queued _ rfl) with same | ⟨-, withdrawn⟩
  · rw [same, awaits.present entry member]
  · exact absurd withdrawn untouched

/-- A step that neither queues a callback nor hands one out changes nothing. -/
theorem skip (awaits : Awaits past before waiting) (run : Runs Orderly sliceMillis past before)
    (step : Step before act after) (orderly : Orderly past before act)
    (queues : act.enqueued? = none) (hands : act.handed? = none)
    (untouched : ∀ entry ∈ waiting, ¬ act.Withdraws entry.1) :
    Awaits (past ++ [act]) after waiting where
  split := by
    rw [Act.filterMap_snoc, Act.filterMap_snoc, queues, hands, awaits.split]
    simp
  named := by
    have jobs := congrArg (List.filterMap Job.immediate?) (step.pending orderly)
    rw [List.filterMap_append, List.filterMap_append, Act.immediate?_resolved?,
      Act.immediate?_pushed?, queues, hands] at jobs
    simpa [awaits.named] using jobs.symm
  present entry member := awaits.present_after run step member (untouched entry member)

theorem enqueue (awaits : Awaits past before waiting) (run : Runs Orderly sliceMillis past before)
    (task : Task α) :
    Awaits (past ++ [.enqueue before.scheduler.nextId task])
      { before with scheduler := (before.scheduler.enqueue task).2 }
      (waiting ++ [(before.scheduler.nextId, some task)]) where
  split := by
    rw [Act.filterMap_snoc, Act.filterMap_snoc, awaits.split]
    simp [Act.enqueued?, Act.handed?]
  named := by
    simp [awaits.named, Snapshot.pending, Scheduler.enqueue, Job.immediate?]
  present entry member := by
    rcases List.mem_append.mp member with old | new
    · exact awaits.present_after run (.enqueue before task) old fun impossible => impossible
    · rw [List.mem_singleton.mp new, task?_enqueue, run.task?_nextId, if_pos rfl]
      rfl

/-- The callback that is handed out is the first of those that wait. -/
theorem take (awaits : Awaits past before waiting) (run : Runs Orderly sliceMillis past before)
    {id : Nat} (holds : before.held = some (.immediate id)) :
    ∃ rest, Awaits (past ++ [.take (.immediate id) (before.scheduler.take (.immediate id)).1])
      { before with scheduler := (before.scheduler.take (.immediate id)).2, held := none }
      rest := by
  have first : waiting.map Prod.fst = id :: before.scheduler.queue.filterMap Job.immediate? := by
    rw [awaits.named, Snapshot.pending, holds]
    rfl
  cases waiting with
  | nil => cases first
  | cons entry rest =>
      injection first with named others
      have given : (before.scheduler.take (.immediate id)).1 = entry.2 := by
        rw [← awaits.present entry List.mem_cons_self, named]
        rfl
      have apart : ∀ other ∈ rest, entry.1 ≠ other.1 := by
        have distinct := run.enqueued_apart
        rw [awaits.split] at distinct
        exact (List.pairwise_cons.mp (List.pairwise_append.mp distinct).2.1).1
      refine ⟨rest, ?_, others, ?_⟩
      · rw [Act.filterMap_snoc, Act.filterMap_snoc, awaits.split, given, ← named]
        simp [Act.enqueued?, Act.handed?]
      · intro other member
        refine awaits.present_after run (.take before (.immediate id))
          (List.mem_cons_of_mem entry member) fun same => apart other member ?_
        exact named.trans same

end Awaits

namespace Runs

variable {sliceMillis : Nat} {past : List (Act α)} {now : Snapshot α}

theorem awaits (run : Runs Orderly sliceMillis past now) :
    ∃ waiting, Awaits past now waiting := by
  induction run with
  | start => exact ⟨[], rfl, rfl, fun _ member => absurd member List.not_mem_nil⟩
  | @step past before after act run step orderly ih =>
      rcases ih with ⟨waiting, awaits⟩
      cases act with
      | enqueue id task =>
          cases step with
          | enqueue => exact ⟨_, awaits.enqueue run task⟩
      | take job answer =>
          have holds : before.held = some job := orderly
          cases job with
          | immediate id =>
              cases step with
              | take => exact awaits.take run holds
          | timerFired id =>
              refine ⟨waiting, awaits.skip run step orderly rfl rfl ?_⟩
              rcases run.pending_armed (Snapshot.mem_pending holds) with ⟨task, repeats, armed⟩
              intro entry member same
              have number : id = entry.1 := same
              exact awaits.not_armed run member (number ▸ armed)
      | cancel id =>
          refine ⟨waiting, awaits.skip run step orderly rfl rfl ?_⟩
          rcases orderly with ⟨task, repeats, armed⟩
          intro entry member same
          have number : id = entry.1 := same
          exact awaits.not_armed run member (number ▸ armed)
      | shutdown => exact False.elim orderly
      | _ => exact ⟨waiting, awaits.skip run step orderly rfl rfl fun _ _ impossible => impossible⟩

/-! ## Timers that do not repeat -/

theorem called_armed (run : Runs Orderly sliceMillis past now) {id : Nat}
    (called : past.filterMap (Act.called? id) ≠ []) :
    ∃ task repeats, .arm id task repeats ∈ past := by
  rcases List.exists_mem_of_ne_nil _ called with ⟨task, member⟩
  rcases List.mem_filterMap.mp member with ⟨act, earlier, gives⟩
  by_cases own : ∃ answer, act = .take (.timerFired id) answer
  · rcases own with ⟨answer, rfl⟩
    have resolved : .timerFired id ∈ past.filterMap Act.resolved? :=
      List.mem_filterMap.mpr ⟨_, earlier, rfl⟩
    exact run.pushed_armed (run.resolved_pending ▸ List.mem_append_left _ resolved)
  · rw [Act.called?_eq_none own] at gives
    cases gives

end Runs

/-- The callback of a timer that does not repeat is in the table until it is handed out or
the timer is cancelled. -/
def AtMostOnce (past : List (Act α)) (now : Snapshot α) (id : Nat) (task : Task α) : Prop :=
  past.filterMap (Act.called? id) ++ (now.scheduler.task? id).toList = [task] ∨
    past.filterMap (Act.called? id) = [] ∧ now.scheduler.task? id = none ∧ .cancel id ∈ past

namespace AtMostOnce

variable {sliceMillis : Nat} {past : List (Act α)} {before after : Snapshot α} {act : Act α}
  {id : Nat} {task : Task α}

theorem arm (run : Runs Orderly sliceMillis past before) (delay : Nat) (task : Task α) :
    AtMostOnce (past ++ [.arm before.scheduler.nextId task false])
      (Snapshot.enter { before with scheduler := (before.scheduler.arm delay task false).2 }
        before.scheduler.nextId .waiting)
      before.scheduler.nextId task := by
  have uncalled : past.filterMap (Act.called? before.scheduler.nextId) = [] := by
    refine Decidable.of_not_not fun called => ?_
    rcases run.called_armed called with ⟨_, _, earlier⟩
    exact Nat.lt_irrefl _ (run.issued earlier)
  have wanted : (before.scheduler.arm delay task false).2.task? before.scheduler.nextId =
      some task := by
    rw [task?_arm, run.task?_nextId, if_pos rfl]
    rfl
  left
  rw [Act.filterMap_snoc, Snapshot.scheduler_enter, uncalled, wanted]
  rfl

/-- A job of the timer uses the callback up. -/
theorem take (once : AtMostOnce past before id task) (run : Runs Orderly sliceMillis past before)
    (armed : .arm id task false ∈ past) :
    AtMostOnce (past ++ [.take (.timerFired id) (before.scheduler.take (.timerFired id)).1])
      { before with scheduler := (before.scheduler.take (.timerFired id)).2, held := none }
      id task := by
  rcases before.scheduler.take_cases (.timerFired id) with
    dropped | ⟨-, timer, live, named, repeating⟩
  · have gone : (before.scheduler.dropTask id).task? id = none :=
      (task?_dropTask before.scheduler id id).trans (if_pos rfl)
    have given : Act.called? id (.take (.timerFired id) (before.scheduler.task? id)) =
        before.scheduler.task? id := if_pos rfl
    unfold AtMostOnce
    rw [dropped]
    dsimp only [Job.number]
    rw [Act.filterMap_snoc, gone, given]
    rcases once with whole | ⟨uncalled, absent, cancelled⟩
    · left
      simpa using whole
    · right
      exact ⟨by simp [uncalled, absent], rfl, List.mem_append_left _ cancelled⟩
  · cases named
    rw [run.repeats_iff live armed] at repeating
    cases repeating

/-- Nothing but a cancellation takes the callback away otherwise. -/
theorem step (once : AtMostOnce past before id task) (run : Runs Orderly sliceMillis past before)
    (armed : .arm id task false ∈ past) (step : Step before act after)
    (orderly : Orderly past before act)
    (foreign : ¬ ∃ answer, act = .take (.timerFired id) answer) :
    AtMostOnce (past ++ [act]) after id task := by
  unfold AtMostOnce
  rw [Act.filterMap_snoc, Act.called?_eq_none foreign, Option.toList_none, List.append_nil]
  rcases step.task?_of_issued (run.issued armed) with same | ⟨gone, withdrawn⟩
  · rw [same]
    exact once.imp_right fun ⟨uncalled, absent, cancelled⟩ =>
      ⟨uncalled, absent, List.mem_append_left _ cancelled⟩
  · cases act with
    | cancel other =>
        have own : other = id := withdrawn
        subst own
        rw [gone]
        rcases once with whole | ⟨uncalled, -, -⟩
        · cases present : before.scheduler.task? other with
          | none =>
              left
              rwa [present] at whole
          | some callback =>
              right
              rw [present, Option.toList_some, List.append_eq_singleton_iff] at whole
              rcases whole with ⟨uncalled, -⟩ | ⟨-, impossible⟩
              · exact ⟨uncalled, rfl, List.mem_append_right _ List.mem_cons_self⟩
              · cases impossible
        · right
          exact ⟨uncalled, rfl, List.mem_append_right _ List.mem_cons_self⟩
    | take job answer =>
        have named : job.number = id := withdrawn
        have holds : before.held = some job := orderly
        cases job with
        | immediate number =>
            cases named
            rcases run.pending_enqueued (Snapshot.mem_pending holds) with ⟨queued, enqueued⟩
            exact absurd armed (run.not_armed_of_enqueued enqueued)
        | timerFired number =>
            cases named
            exact absurd ⟨answer, rfl⟩ foreign
    | shutdown => exact False.elim orderly
    | _ => exact False.elim withdrawn

end AtMostOnce

namespace Runs

variable {sliceMillis : Nat} {past : List (Act α)} {now : Snapshot α}

theorem atMostOnce (run : Runs Orderly sliceMillis past now) {id : Nat} {task : Task α}
    (armed : .arm id task false ∈ past) : AtMostOnce past now id task := by
  induction run with
  | start => cases armed
  | @step past before after act run step orderly ih =>
      rcases List.mem_append.mp armed with earlier | last
      · by_cases own : ∃ answer, act = .take (.timerFired id) answer
        · rcases own with ⟨answer, rfl⟩
          cases step with
          | take => exact (ih earlier).take run earlier
        · exact (ih earlier).step run earlier step orderly own
      · rw [← List.mem_singleton.mp last] at step ⊢
        cases step with
        | arm delay => exact .arm run delay task

/-! ## Delivery -/

theorem delivered (run : Runs Orderly sliceMillis past now) : Delivered past now where
  ordered := by
    rw [← run.resolved_held, List.append_assoc]
    exact run.resolved_pending
  resolved := run.resolved_held
  handed := by
    rcases run.awaits with ⟨waiting, awaits⟩
    exact ⟨waiting, awaits.split.symm⟩
  apart := run.enqueued_apart
  once id task armed := by
    rcases run.atMostOnce armed with whole | ⟨uncalled, -⟩
    · exact whole ▸ List.sublist_append_left _ _
    · exact uncalled ▸ List.nil_sublist _

/-- With no job and no timer left, every callback has been handed out. -/
theorem drained (run : Runs Orderly sliceMillis past now) (free : now.held = none)
    (queue : now.scheduler.queue = []) (timers : now.scheduler.timers = []) :
    Drained past now := by
  have idle : now.pending = [] := by rw [Snapshot.pending, free, queue]; rfl
  have absent : ∀ id, now.scheduler.task? id = none := by
    intro id
    refine Decidable.of_not_not fun present => ?_
    rcases run.justified id present with ⟨job, pending, -⟩ | ⟨timer, live, -⟩
    · rw [idle] at pending
      cases pending
    · rw [timers] at live
      cases live
  refine ⟨queue, timers, tasks_eq_nil absent, ?_, ?_⟩
  · rcases run.awaits with ⟨waiting, awaits⟩
    have nothing : waiting = [] := by
      have named := awaits.named
      rw [idle] at named
      exact List.map_eq_nil_iff.mp named
    rw [awaits.split, nothing, List.append_nil]
  · intro id task armed kept
    rcases run.atMostOnce armed with whole | ⟨-, -, cancelled⟩
    · rwa [absent id, Option.toList_none, List.append_nil] at whole
    · exact absurd cancelled kept

/-- There is no answer only when nothing is left. -/
theorem drained_of_next (run : Runs Orderly sliceMillis (past ++ [.next none]) now) :
    Drained (past ++ [.next none]) now := by
  rcases run.last with ⟨before, -, step, orderly⟩
  have free : now.held = none := by
    have holds := step.held orderly
    rw [show before.held = none from orderly] at holds
    exact Option.toList_eq_nil_iff.mp holds
  rcases step.next_none with ⟨queue, timers⟩
  exact run.drained free queue timers

/-- However the parties interleave: jobs leave the queue in the order in which they entered
it, queued callbacks are handed out in order, each once and as it was queued, timers that do
not repeat call back once at most, and the event loop ends only when nothing is left and
nothing was left out. -/
theorem exactly_once (run : Runs Orderly sliceMillis past now) :
    Delivered past now ∧
    (∀ earlier, past = earlier ++ [.next none] → Drained past now) ∧
    (now.Rests → now.held = none → now.scheduler.next.1 = none →
      now.scheduler.next.2.queue = [] ∧ now.scheduler.next.2.timers = [] ∧
        now.scheduler.next.2.tasks = []) := by
  refine ⟨run.delivered, ?_, ?_⟩
  · rintro earlier rfl
    exact run.drained_of_next
  · intro rests free none
    rcases run.next rests free with ⟨moves, later, -, waited, reached, -⟩
    rw [none] at waited
    have drained := waited.drained_of_next
    rw [← reached]
    exact ⟨drained.queue, drained.timers, drained.tasks⟩

/-- A timer calls back while its thread has still to leave. -/
theorem exactly_once_early_take : ∃ now : Snapshot Nat,
    Runs Orderly 5 [.enqueue 1 ⟨7, [3]⟩, .arm 2 ⟨8, []⟩ false, .move 2, .fire 2,
      .next (some (.immediate 1)), .take (.immediate 1) (some ⟨7, [3]⟩),
      .next (some (.timerFired 2)), .take (.timerFired 2) (some ⟨8, []⟩), .move 2, .next none] now ∧
    now.scheduler.tasks = [] := by
  have fresh : Runs Orderly 5 [] { scheduler := (new 5 : Scheduler Nat) } := .start
  have queued := fresh.step (.enqueue _ ⟨7, [3]⟩) trivial
  have armed := queued.step (.arm _ 9 ⟨8, []⟩ false) trivial
  have due := armed.step (.fallDue _ _ 9 List.mem_cons_self rfl rfl) trivial
  have fired := due.step (.fire _ _ List.mem_cons_self rfl) trivial
  have popped := fired.step (.next _ (.inl (List.cons_ne_nil _ _))) rfl
  have taken := popped.step (.take _ (.immediate 1)) rfl
  have poppedAgain := taken.step (.next _ (.inl (List.cons_ne_nil _ _))) rfl
  have takenAgain := poppedAgain.step (.take _ (.timerFired 2)) rfl
  have left := takenAgain.step (.retire _ _ List.mem_cons_self rfl) trivial
  have asked := left.step (.next _ (.inr rfl)) rfl
  exact ⟨_, asked, (asked.exactly_once.2.1 _ rfl).tasks⟩

end Runs

end Scheduler

end Hati
