import Hati.Proofs.Scheduling.Interleaving

namespace Hati

/-!
# What ties the tables of the scheduler together

A callback that waits is spread over three tables: the queue has its number, the table
of callbacks has what is called, and the live timers tell whether a job of a timer uses
its callback up.  The parties update the tables at different moments.  What ties them
together is that every callback in the table has a reason to be there: a job that names
it is not resolved yet, or the thread of its timer has still to queue one.
-/

namespace Scheduler

variable {α : Type}

namespace Act

/-- The job that a step queues. -/
def pushed? : Act α → Option Job
  | enqueue id _ => some (.immediate id)
  | fire id => some (.timerFired id)
  | _ => none

/-- The job that a step removes from the queue. -/
def popped? : Act α → Option Job
  | next answer => answer
  | _ => none

/-- The job that a step resolves. -/
def resolved? : Act α → Option Job
  | take job _ => some job
  | _ => none

theorem filterMap_snoc {β : Type} (past : List (Act α)) (act : Act α) (part : Act α → Option β) :
    (past ++ [act]).filterMap part = past.filterMap part ++ (part act).toList := by
  rw [List.filterMap_append]
  cases gives : part act <;> simp [gives]

end Act

/-! ## Jobs -/

theorem Snapshot.mem_pending {now : Snapshot α} {job : Job} (holds : now.held = some job) :
    job ∈ now.pending := by
  rw [Snapshot.pending, holds]
  exact List.mem_cons_self

/-- What a step adds to the unresolved jobs goes to their end, and what it resolves
comes from their front. -/
theorem Step.pending {past : List (Act α)} {before after : Snapshot α} {act : Act α}
    (step : Step before act after) (orderly : Orderly past before act) :
    act.resolved?.toList ++ after.pending = before.pending ++ act.pushed?.toList := by
  cases step with
  | enqueue task => simp [Snapshot.pending, Act.resolved?, Act.pushed?, Scheduler.enqueue]
  | arm delay task repeats => exact (List.append_nil _).symm
  | refuse => exact (List.append_nil _).symm
  | cancel id => exact (List.append_nil _).symm
  | fallDue timer moment => exact (List.append_nil _).symm
  | giveUp timer moment => exact (List.append_nil _).symm
  | fire timer =>
      simp [Snapshot.pending, Act.resolved?, Act.pushed?, queue_fire]
  | retire timer => exact (List.append_nil _).symm
  | next ready =>
      have free : before.held = none := orderly
      rw [Scheduler.next]
      rcases nextWithin_cases ready (before.scheduler.timers.length + 1) with
        ⟨job, queue, queued, answer⟩ | ⟨empty, -, answer⟩
      · simp [Snapshot.pending, Act.resolved?, Act.pushed?, answer, free, queued]
      · simp [Snapshot.pending, Act.resolved?, Act.pushed?, answer, free]
  | take job =>
      have holds : before.held = some job := orderly
      rcases before.scheduler.take_frame job with ⟨tasks, taken⟩
      simp [Snapshot.pending, Act.resolved?, Act.pushed?, holds, taken]
  | shutdown => exact False.elim orderly

theorem Step.next_none {before after : Snapshot α} (step : Step before (.next none) after) :
    after.scheduler.queue = [] ∧ after.scheduler.timers = [] := by
  generalize asked : (Act.next none : Act α) = act at step
  cases step with
  | next ready =>
      have unanswered : before.scheduler.next.1 = none := (Act.next.inj asked).symm
      rw [Scheduler.next] at unanswered ⊢
      rcases nextWithin_cases ready (before.scheduler.timers.length + 1) with
        ⟨job, queue, -, answer⟩ | ⟨queue, timers, answer⟩
      · rw [answer] at unanswered
        cases unanswered
      · rw [answer]
        exact ⟨queue, timers⟩
  | _ => cases asked

/-- The event loop holds the job that it removed until it resolves it. -/
theorem Step.held {past : List (Act α)} {before after : Snapshot α} {act : Act α}
    (step : Step before act after) (orderly : Orderly past before act) :
    act.resolved?.toList ++ after.held.toList = before.held.toList ++ act.popped?.toList := by
  cases step with
  | next ready =>
      have free : before.held = none := orderly
      rw [free]
      rfl
  | take job =>
      have holds : before.held = some job := orderly
      rw [holds]
      rfl
  | _ => exact (List.append_nil _).symm

namespace Runs

variable {sliceMillis : Nat} {past : List (Act α)} {now : Snapshot α}

/-- What every step balances is balanced over a whole run. -/
theorem balance {β : Type} {out into : Act α → Option β} {stock : Snapshot α → List β}
    (empty : stock { scheduler := new sliceMillis } = [])
    (each : ∀ past before act after, Step before act after → Orderly past before act →
      (out act).toList ++ stock after = stock before ++ (into act).toList)
    (run : Runs Orderly sliceMillis past now) :
    past.filterMap out ++ stock now = past.filterMap into := by
  induction run with
  | start => exact empty
  | @step past before after act run step orderly ih =>
      calc (past ++ [act]).filterMap out ++ stock after
          = past.filterMap out ++ ((out act).toList ++ stock after) := by
            rw [Act.filterMap_snoc, List.append_assoc]
        _ = past.filterMap out ++ stock before ++ (into act).toList := by
            rw [each past before act after step orderly, List.append_assoc]
        _ = (past ++ [act]).filterMap into := by
            rw [ih, Act.filterMap_snoc]

theorem resolved_pending (run : Runs Orderly sliceMillis past now) :
    past.filterMap Act.resolved? ++ now.pending = past.filterMap Act.pushed? :=
  run.balance rfl fun _ _ _ _ step orderly => step.pending orderly

theorem resolved_held (run : Runs Orderly sliceMillis past now) :
    past.filterMap Act.resolved? ++ now.held.toList = past.filterMap Act.popped? :=
  run.balance rfl fun _ _ _ _ step orderly => step.held orderly

end Runs

/-! ## Timers -/

/-- Only arming adds a timer, and only a cancellation marks one. -/
theorem Step.timer_origin {before after : Snapshot α} {act : Act α}
    (step : Step before act after) {timer : Timer} (live : timer ∈ after.scheduler.timers) :
    (∃ old ∈ before.scheduler.timers, old.id = timer.id ∧ old.period = timer.period ∧
      (old.cancelledAt = timer.cancelledAt ∨ act = .cancel timer.id)) ∨
    ∃ task, act = .arm timer.id task timer.period.isSome ∧ timer.cancelledAt = none ∧
      after.phase timer.id = .waiting := by
  have same : timer ∈ before.scheduler.timers → ∃ old ∈ before.scheduler.timers,
      old.id = timer.id ∧ old.period = timer.period ∧
        (old.cancelledAt = timer.cancelledAt ∨ act = .cancel timer.id) :=
    fun old => ⟨timer, old, rfl, rfl, .inl rfl⟩
  cases step with
  | enqueue task => exact .inl (same live)
  | arm delay task repeats =>
      rcases List.mem_append.mp live with old | new
      · exact .inl (same old)
      · rw [List.mem_singleton.mp new]
        refine .inr ⟨task, ?_, rfl, if_pos rfl⟩
        cases repeats <;> rfl
  | refuse => exact .inl (same live)
  | cancel id =>
      rcases List.mem_map.mp live with ⟨old, member, becomes⟩
      by_cases marked : (old.id == id && old.cancelledAt.isNone) = true
      · rw [if_pos marked] at becomes
        have named : old.id = id := beq_iff_eq.mp (Bool.and_eq_true_iff.mp marked).1
        refine .inl ⟨old, member, ?_⟩
        subst becomes
        exact ⟨rfl, rfl, .inr (by rw [named])⟩
      · rw [if_neg marked] at becomes
        exact .inl (same (becomes ▸ member))
  | fallDue other moment => exact .inl (same live)
  | giveUp other moment => exact .inl (same live)
  | fire other member =>
      rcases mem_timers_fire live with old | ⟨named, period, cancelled⟩
      · exact .inl (same old)
      · exact .inl ⟨other, member, named.symm, period.symm, .inl cancelled.symm⟩
  | retire other => exact .inl (same (List.mem_filter.mp live).1)
  | next ready =>
      rcases next_frame ready with ⟨queue, answered⟩
      rw [answered] at live
      exact .inl (same live)
  | take job =>
      rcases before.scheduler.take_frame job with ⟨tasks, taken⟩
      rw [taken] at live
      exact .inl (same live)
  | shutdown => exact absurd live List.not_mem_nil

/-- A thread is about to leave for one of two reasons: its timer was cancelled, or the
timer has fired and does not repeat. -/
theorem Step.leaving_origin {before after : Snapshot α} {act : Act α}
    (step : Step before act after) {id : Nat} (leaves : after.phase id = .leaving) :
    before.phase id = .leaving ∨
      ∃ timer ∈ before.scheduler.timers, timer.id = id ∧
        (timer.cancelledAt ≠ none ∨ timer.period = none) := by
  cases step with
  | arm delay task repeats =>
      rw [Snapshot.phase_enter] at leaves
      split at leaves
      · cases leaves
      · exact .inl leaves
  | fallDue timer moment =>
      rw [Snapshot.phase_enter] at leaves
      split at leaves
      · cases leaves
      · exact .inl leaves
  | giveUp timer moment live waits cancelled =>
      rw [Snapshot.phase_enter] at leaves
      split at leaves
      · rename_i same
        exact .inr ⟨timer, live, same.symm, .inl cancelled⟩
      · exact .inl leaves
  | fire timer live due =>
      rw [Snapshot.phase_enter] at leaves
      split at leaves
      · rename_i same
        refine .inr ⟨timer, live, same.symm, .inr ?_⟩
        cases period : timer.period with
        | none => rfl
        | some length =>
            rw [period] at leaves
            cases leaves
      · exact .inl leaves
  | _ => exact .inl leaves

/-- A timer that is not about to leave stays live until it has queued its job, unless it
was cancelled. -/
theorem Step.timer_stays {past : List (Act α)} {before after : Snapshot α} {act : Act α}
    (step : Step before act after) (orderly : Orderly past before act) {timer : Timer}
    (live : timer ∈ before.scheduler.timers) (stays : before.phase timer.id ≠ .leaving) :
    (∃ same ∈ after.scheduler.timers, same.id = timer.id ∧ after.phase timer.id ≠ .leaving) ∨
    .timerFired timer.id ∈ after.pending ∨
    ∃ other ∈ before.scheduler.timers, other.id = timer.id ∧ other.cancelledAt ≠ none := by
  cases step with
  | enqueue task => exact .inl ⟨timer, live, rfl, stays⟩
  | arm delay task repeats =>
      refine .inl ⟨timer, List.mem_append_left _ live, rfl, ?_⟩
      rw [Snapshot.phase_enter]
      split
      · exact Phase.noConfusion
      · exact stays
  | refuse => exact .inl ⟨timer, live, rfl, stays⟩
  | cancel id =>
      refine .inl ⟨_, List.mem_map_of_mem live, ?_, stays⟩
      split <;> rfl
  | fallDue other moment =>
      refine .inl ⟨timer, live, rfl, ?_⟩
      rw [Snapshot.phase_enter]
      split
      · exact Phase.noConfusion
      · exact stays
  | giveUp other moment member waits cancelled =>
      by_cases same : timer.id = other.id
      · exact .inr (.inr ⟨other, member, same.symm, cancelled⟩)
      · refine .inl ⟨timer, live, rfl, ?_⟩
        rw [Snapshot.phase_enter, if_neg same]
        exact stays
  | fire other member =>
      by_cases same : timer.id = other.id
      · refine .inr (.inl (List.mem_append_right _ ?_))
        rw [Snapshot.scheduler_enter, queue_fire, same]
        exact List.mem_append_right _ List.mem_cons_self
      · refine .inl ⟨timer, ?_, rfl, ?_⟩
        · exact mem_timers_fire_of_ne live same
        · rw [Snapshot.phase_enter, if_neg same]
          exact stays
  | retire other member leaves =>
      have different : timer.id ≠ other.id := fun same => stays (same ▸ leaves)
      refine .inl ⟨timer, List.mem_filter.mpr ⟨live, ?_⟩, rfl, stays⟩
      simpa using different
  | next ready =>
      rcases next_frame ready with ⟨queue, answered⟩
      refine .inl ⟨timer, ?_, rfl, stays⟩
      rw [answered]
      exact live
  | take job =>
      rcases before.scheduler.take_frame job with ⟨tasks, taken⟩
      refine .inl ⟨timer, ?_, rfl, stays⟩
      rw [taken]
      exact live
  | shutdown => exact False.elim orderly

namespace Runs

variable {allowed : List (Act α) → Snapshot α → Act α → Prop} {sliceMillis : Nat}
  {past : List (Act α)} {now : Snapshot α}

/-- Live timers were armed. -/
theorem armed (run : Runs allowed sliceMillis past now) :
    ∀ timer ∈ now.scheduler.timers, ∃ task, .arm timer.id task timer.period.isSome ∈ past := by
  induction run with
  | start => exact fun _ live => absurd live List.not_mem_nil
  | step run step admitted ih =>
      intro timer live
      rcases step.timer_origin live with ⟨old, member, named, period, -⟩ | ⟨task, act, -⟩
      · rcases ih old member with ⟨task, earlier⟩
        rw [named, period] at earlier
        exact ⟨task, List.mem_append_left _ earlier⟩
      · exact ⟨task, List.mem_append_right _ (act ▸ List.mem_cons_self)⟩

theorem live_issued (run : Runs allowed sliceMillis past now) {timer : Timer}
    (live : timer ∈ now.scheduler.timers) : timer.id < now.scheduler.nextId := by
  rcases run.armed timer live with ⟨task, earlier⟩
  exact run.issued earlier

/-- Whether a timer repeats is settled when it is armed. -/
theorem repeats_iff (run : Runs allowed sliceMillis past now) {timer : Timer}
    (live : timer ∈ now.scheduler.timers) {task : Task α} {repeats : Bool}
    (armed : .arm timer.id task repeats ∈ past) : timer.period.isSome = repeats := by
  rcases run.armed timer live with ⟨registered, earlier⟩
  have same := run.numbered.unique earlier armed rfl rfl
  injection same

theorem fired_armed (run : Runs allowed sliceMillis past now) {id : Nat}
    (fired : .fire id ∈ past) : ∃ task repeats, .arm id task repeats ∈ past := by
  induction run with
  | start => cases fired
  | step run step admitted ih =>
      rcases List.mem_append.mp fired with earlier | last
      · rcases ih earlier with ⟨task, repeats, armed⟩
        exact ⟨task, repeats, List.mem_append_left _ armed⟩
      · rw [← List.mem_singleton.mp last] at step
        cases step with
        | fire timer live =>
            rcases run.armed timer live with ⟨task, armed⟩
            exact ⟨task, _, List.mem_append_left _ armed⟩

/-- A job of a timer is queued only if the timer was armed. -/
theorem pushed_armed (run : Runs Orderly sliceMillis past now) {id : Nat}
    (pushed : .timerFired id ∈ past.filterMap Act.pushed?) :
    ∃ task repeats, .arm id task repeats ∈ past := by
  rcases List.mem_filterMap.mp pushed with ⟨act, member, gives⟩
  cases act with
  | fire other =>
      cases gives
      exact run.fired_armed member
  | _ => cases gives

theorem pending_armed (run : Runs Orderly sliceMillis past now) {id : Nat}
    (pending : .timerFired id ∈ now.pending) : ∃ task repeats, .arm id task repeats ∈ past :=
  run.pushed_armed (run.resolved_pending ▸ List.mem_append_right _ pending)

/-- The job of a queued callback is queued with it. -/
theorem pending_enqueued (run : Runs Orderly sliceMillis past now) {id : Nat}
    (pending : .immediate id ∈ now.pending) : ∃ task, .enqueue id task ∈ past := by
  have pushed : .immediate id ∈ past.filterMap Act.pushed? :=
    run.resolved_pending ▸ List.mem_append_right _ pending
  rcases List.mem_filterMap.mp pushed with ⟨act, member, gives⟩
  cases act with
  | enqueue other task =>
      cases gives
      exact ⟨task, member⟩
  | _ => cases gives

end Runs

/-! ## Callbacks -/

theorem tasks_eq_nil {scheduler : Scheduler α} (absent : ∀ id, scheduler.task? id = none) :
    scheduler.tasks = [] := by
  cases listed : scheduler.tasks with
  | nil => rfl
  | cons entry tasks =>
      have first := absent entry.1
      rw [task?, listed, List.lookup_cons_self] at first
      cases first

namespace Runs

variable {allowed : List (Act α) → Snapshot α → Act α → Prop} {sliceMillis : Nat}
  {past : List (Act α)} {now : Snapshot α}

/-- The numbers of the callbacks in the table were given out. -/
theorem task_issued (run : Runs allowed sliceMillis past now) {id : Nat} {task : Task α}
    (wanted : now.scheduler.task? id = some task) : ∃ act ∈ past, act.issued? = some id := by
  induction run with
  | start => cases wanted
  | step run step admitted ih =>
      rcases step.task?_cases id with same | ⟨gone, -⟩ | ⟨new, -, -, issues⟩
      · rcases ih (same ▸ wanted) with ⟨act, member, gives⟩
        exact ⟨act, List.mem_append_left _ member, gives⟩
      · rw [gone] at wanted
        cases wanted
      · refine ⟨_, List.mem_append_right _ List.mem_cons_self, ?_⟩
        rcases issues with rfl | ⟨repeats, rfl⟩ <;> rfl

theorem task?_nextId (run : Runs allowed sliceMillis past now) :
    now.scheduler.task? now.scheduler.nextId = none := by
  cases wanted : now.scheduler.task? now.scheduler.nextId with
  | none => rfl
  | some task =>
      rcases run.task_issued wanted with ⟨act, member, gives⟩
      exact absurd (run.numbered.below act member _ gives) (Nat.lt_irrefl _)

/-- A callback is queued by itself or belongs to a timer, never both. -/
theorem not_armed_of_enqueued (run : Runs allowed sliceMillis past now) {id : Nat}
    {task : Task α} (enqueued : .enqueue id task ∈ past) {other : Task α} {repeats : Bool} :
    .arm id other repeats ∉ past := by
  intro armed
  have same := run.numbered.unique enqueued armed rfl rfl
  cases same

/-! ## Why a callback is in the table -/

/-- The callback of a cancelled timer has left the table. -/
theorem task?_of_marked (run : Runs Orderly sliceMillis past now) :
    ∀ timer ∈ now.scheduler.timers, timer.cancelledAt ≠ none →
      now.scheduler.task? timer.id = none := by
  induction run with
  | start => exact fun _ live => absurd live List.not_mem_nil
  | @step past before after act run step orderly ih =>
      intro timer live marked
      rcases step.timer_origin live with ⟨old, member, named, -, mark⟩ | ⟨_, -, unmarked, -⟩
      · rcases mark with same | cancelled
        · rw [← named]
          exact step.task?_none (run.live_issued member) (ih old member (same ▸ marked))
        · rw [cancelled] at step
          cases step with
          | cancel => exact (task?_cancel before.scheduler timer.id timer.id).trans (if_pos rfl)
      · exact absurd unmarked marked

/-- A thread that is about to leave will not want the callback again. -/
theorem task?_of_leaving (run : Runs Orderly sliceMillis past now) :
    ∀ timer ∈ now.scheduler.timers, now.phase timer.id = .leaving → timer.period.isSome = true →
      now.scheduler.task? timer.id = none := by
  induction run with
  | start => exact fun _ live => absurd live List.not_mem_nil
  | @step past before after act run step orderly ih =>
      intro timer live leaves repeating
      rcases step.timer_origin live with ⟨old, member, named, period, -⟩ | ⟨_, -, -, waits⟩
      · have absent : before.scheduler.task? old.id = none := by
          rcases step.leaving_origin leaves with left | ⟨other, otherLive, same, reason⟩
          · exact ih old member (named ▸ left) (period ▸ repeating)
          · rcases reason with marked | once
            · rw [named, ← same]
              exact run.task?_of_marked other otherLive marked
            · -- The two entries have the same number, so both of them repeat.
              rcases run.armed other otherLive with ⟨task, armed⟩
              rw [same, ← named] at armed
              have agree := run.repeats_iff member armed
              rw [period, repeating, once] at agree
              cases agree
        rw [← named]
        exact step.task?_none (run.live_issued member) absent
      · rw [waits] at leaves
        cases leaves

/-- A callback that is not used up belongs to a timer that will fire again. -/
theorem stays_of_taken (run : Runs Orderly sliceMillis past now) {job : Job}
    (present : (now.scheduler.take job).2.task? job.number ≠ none) :
    ∃ timer ∈ (now.scheduler.take job).2.timers,
      timer.id = job.number ∧ now.phase job.number ≠ .leaving := by
  rcases now.scheduler.take_cases job with dropped | ⟨kept, timer, live, rfl, repeating⟩
  · rw [dropped, task?_dropTask, if_pos rfl] at present
    exact absurd rfl present
  · rw [kept] at present ⊢
    exact ⟨timer, live, rfl, fun leaves =>
      present (run.task?_of_leaving timer live leaves repeating)⟩

/-- Every callback in the table has an unresolved job, or a timer that has still to queue
one. -/
theorem justified (run : Runs Orderly sliceMillis past now) :
    ∀ id, now.scheduler.task? id ≠ none →
      (∃ job ∈ now.pending, job.number = id) ∨
      ∃ timer ∈ now.scheduler.timers, timer.id = id ∧ now.phase id ≠ .leaving := by
  induction run with
  | start => exact fun id present => absurd rfl present
  | @step past before after act run step orderly ih =>
      intro id present
      have balance := step.pending orderly
      rcases step.task?_cases id with same | ⟨gone, -⟩ | ⟨task, -, -, issues⟩
      · rcases ih id (same ▸ present) with ⟨job, pending, named⟩ | ⟨timer, live, named, stays⟩
        · have found : job ∈ act.resolved?.toList ++ after.pending :=
            balance ▸ List.mem_append_left _ pending
          rcases List.mem_append.mp found with resolved | still
          · cases act with
            | take other answer =>
                cases List.mem_singleton.mp resolved
                cases step with
                | take =>
                    subst named
                    exact .inr (run.stays_of_taken present)
            | _ => cases resolved
          · exact .inl ⟨job, still, named⟩
        · subst named
          rcases step.timer_stays orderly live stays with
            still | fired | ⟨other, member, agree, marked⟩
          · exact .inr still
          · exact .inl ⟨_, fired, rfl⟩
          · have absent := run.task?_of_marked other member marked
            rw [agree] at absent
            exact absurd (same.trans absent) present
      · exact absurd gone present
      · rcases issues with queues | ⟨repeats, arms⟩
        · rw [queues] at balance
          have longer : after.pending = before.pending ++ [.immediate id] := balance
          exact .inl ⟨.immediate id, longer ▸ List.mem_append_right _ List.mem_cons_self, rfl⟩
        · right
          rw [arms] at step
          cases step with
          | arm delay =>
              refine ⟨_, List.mem_append_right _ List.mem_cons_self, rfl, ?_⟩
              simp

end Runs

end Scheduler

end Hati
