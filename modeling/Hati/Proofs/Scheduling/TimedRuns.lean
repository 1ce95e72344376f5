import Hati.Proofs.Scheduling.Bookkeeping

namespace Hati

/-!
# Runs against the clock

In the interleavings of `Step` time passes as it likes.  Here it does not: every thread wakes
exactly at the deadline of its timer, and whatever the parties do takes no time.  So a thread
comes to its deadline only at that very moment, and the clock does not move past a deadline
before the timer has woken and queued its job.

The threads and the event loop still take their steps in any order within a moment, and a
thread whose timer was cancelled may notice it at any time.  What happens is written to a log,
with the moment at which it happens.
-/

namespace Scheduler

variable {α : Type}

/-- What becomes of timers and jobs. -/
inductive Happening where
  | armed (id delay : Nat) (repeats : Bool)
  /-- A live timer was cancelled. -/
  | cancelled (id : Nat)
  /-- The timer has come to its deadline, and its thread will queue the job. -/
  | woke (id : Nat)
  | queued (job : Job)
  | returned (job : Job)
deriving DecidableEq

namespace Happening

/-- The timer that it happens to. -/
def timer? : Happening → Option Nat
  | armed id _ _ => some id
  | cancelled id => some id
  | woke id => some id
  | queued (.timerFired id) => some id
  | _ => none

def queued? : Happening → Option Job
  | queued job => some job
  | _ => none

def returned? : Happening → Option Job
  | returned job => some job
  | _ => none

end Happening

/-- What has happened, the latest last, each with its moment. -/
abbrev Log := List (Nat × Happening)

namespace Log

/-- The moments at which the same happened. -/
def moments (log : Log) (happening : Happening) : List Nat :=
  log.filterMap fun entry => if entry.2 = happening then some entry.1 else none

/-- The jobs that were queued, with the moments at which they were. -/
def queuings (log : Log) : List (Nat × Job) :=
  log.filterMap fun entry => entry.2.queued?.map fun job => (entry.1, job)

/-- The jobs that the event loop was given. -/
def returns (log : Log) : List Job :=
  log.filterMap fun entry => entry.2.returned?

/-- What happens now is the latest. -/
def record (log : Log) (moment : Nat) (happenings : List Happening) : Log :=
  log ++ happenings.map fun happening => (moment, happening)

end Log

/-- The clock may be set to the moment: no thread is about to queue a job, and none sleeps
through its deadline. -/
def Snapshot.MayPass (now : Snapshot α) (moment : Nat) : Prop :=
  now.scheduler.now ≤ moment ∧
    ∀ timer ∈ now.scheduler.timers, now.phase timer.id ≠ .due ∧
      (now.phase timer.id = .waiting → timer.cancelledAt = none → moment ≤ timer.deadline)

/-- The thread of a timer queues the job; then it waits again if the timer repeats. -/
def Snapshot.fired (now : Snapshot α) (timer : Timer) : Snapshot α :=
  Snapshot.enter { now with scheduler := now.scheduler.fire timer } timer.id
    (if timer.period.isSome then .waiting else .leaving)

@[simp]
theorem Snapshot.scheduler_fired (now : Snapshot α) (timer : Timer) :
    (now.fired timer).scheduler = now.scheduler.fire timer := rfl

@[simp]
theorem Snapshot.phase_fired (now : Snapshot α) (timer : Timer) (other : Nat) :
    (now.fired timer).phase other =
      if other = timer.id then if timer.period.isSome then .waiting else .leaving
      else now.phase other := rfl

/-- One step of one party, which takes no time, or the passing of time; with what happens. -/
inductive Tick : Snapshot α → List Happening → Snapshot α → Prop where
  | pass (now : Snapshot α) (moment : Nat) (allowed : now.MayPass moment) :
    Tick now [] { now with scheduler := now.scheduler.advance moment }
  | enqueue (now : Snapshot α) (task : Task α) :
    Tick now [.queued (.immediate (now.scheduler.enqueue task).1)]
      { now with scheduler := (now.scheduler.enqueue task).2 }
  | arm (now : Snapshot α) (delay : Nat) (task : Task α) (repeats : Bool) :
    Tick now [.armed (now.scheduler.arm delay task repeats).1 delay repeats]
      (Snapshot.enter { now with scheduler := (now.scheduler.arm delay task repeats).2 }
        (now.scheduler.arm delay task repeats).1 .waiting)
  | refuse (now : Snapshot α) : Tick now [] { now with scheduler := now.scheduler.refuse }
  | cancel (now : Snapshot α) (id : Nat) :
    Tick now (if (now.scheduler.cancel id).1 then [.cancelled id] else [])
      { now with scheduler := (now.scheduler.cancel id).2 }
  | fallDue (now : Snapshot α) (timer : Timer) (live : timer ∈ now.scheduler.timers)
    (waits : now.phase timer.id = .waiting) (wanted : timer.cancelledAt = none)
    (reached : timer.deadline = now.scheduler.now) :
    Tick now [.woke timer.id] (now.enter timer.id .due)
  | giveUp (now : Snapshot α) (timer : Timer) (live : timer ∈ now.scheduler.timers)
    (waits : now.phase timer.id = .waiting) (unwanted : timer.cancelledAt ≠ none) :
    Tick now [] (now.enter timer.id .leaving)
  | fire (now : Snapshot α) (timer : Timer) (live : timer ∈ now.scheduler.timers)
    (due : now.phase timer.id = .due) :
    Tick now [.queued (.timerFired timer.id)] (now.fired timer)
  | retire (now : Snapshot α) (timer : Timer) (live : timer ∈ now.scheduler.timers)
    (leaves : now.phase timer.id = .leaving) :
    Tick now [] { now with scheduler := now.scheduler.retire timer.id }
  | next (now : Snapshot α)
    (ready : now.scheduler.queue ≠ [] ∨ now.scheduler.timers = []) :
    Tick now (now.scheduler.next.1.toList.map .returned)
      { now with scheduler := now.scheduler.next.2, held := now.scheduler.next.1 }
  | take (now : Snapshot α) (job : Job) :
    Tick now [] { now with scheduler := (now.scheduler.take job).2, held := none }

/-- The runs of an empty scheduler against the clock. -/
inductive TimedRun (sliceMillis : Nat) : Log → Snapshot α → Prop where
  | start : TimedRun sliceMillis [] { scheduler := new sliceMillis }
  | tick {log : Log} {before after : Snapshot α} {happenings : List Happening}
    (run : TimedRun sliceMillis log before) (tick : Tick before happenings after) :
    TimedRun sliceMillis (log.record before.scheduler.now happenings) after

/-! ## The clock only restricts -/

@[simp]
theorem advance_now (scheduler : Scheduler α) : scheduler.advance scheduler.now = scheduler := by
  simp [advance]

/-- Only the passing of time is no step of a party. -/
theorem Tick.step {before after : Snapshot α} {happenings : List Happening}
    (tick : Tick before happenings after) :
    (∃ moment, before.MayPass moment ∧ happenings = [] ∧
      after = { before with scheduler := before.scheduler.advance moment }) ∨
    (∃ act, Step before act after) ∧ after.scheduler.now = before.scheduler.now := by
  cases tick with
  | pass moment allowed => exact .inl ⟨moment, allowed, rfl, rfl⟩
  | enqueue task => exact .inr ⟨⟨_, .enqueue before task⟩, rfl⟩
  | arm delay task repeats => exact .inr ⟨⟨_, .arm before delay task repeats⟩, rfl⟩
  | refuse => exact .inr ⟨⟨_, .refuse before⟩, rfl⟩
  | cancel id => exact .inr ⟨⟨_, .cancel before id⟩, rfl⟩
  | fallDue timer live waits wanted reached =>
      have step := Step.fallDue before timer before.scheduler.now live waits wanted
      rw [advance_now] at step
      exact .inr ⟨⟨_, step⟩, rfl⟩
  | giveUp timer live waits unwanted =>
      have step := Step.giveUp before timer before.scheduler.now live waits unwanted
      rw [advance_now] at step
      exact .inr ⟨⟨_, step⟩, rfl⟩
  | fire timer live due =>
      refine .inr ⟨⟨_, .fire before timer live due⟩, ?_⟩
      rcases before.scheduler.fire_frame timer with ⟨timers, fired⟩
      rw [Snapshot.scheduler_fired, fired]
  | retire timer live leaves => exact .inr ⟨⟨_, .retire before timer live leaves⟩, rfl⟩
  | next ready =>
      refine .inr ⟨⟨_, .next before ready⟩, ?_⟩
      rcases next_frame ready with ⟨queue, answered⟩
      rw [answered]
  | take job =>
      refine .inr ⟨⟨_, .take before job⟩, ?_⟩
      rcases before.scheduler.take_frame job with ⟨tasks, taken⟩
      rw [taken]

/-! ## The log -/

namespace Log

theorem returns_append (log later : Log) : (log ++ later).returns = log.returns ++ later.returns :=
  List.filterMap_append

theorem queuings_append (log later : Log) :
    (log ++ later).queuings = log.queuings ++ later.queuings :=
  List.filterMap_append

theorem record_nil (log : Log) (moment : Nat) : log.record moment [] = log :=
  List.append_nil log

theorem mem_record {log : Log} {moment : Nat} {happenings : List Happening}
    {entry : Nat × Happening} :
    entry ∈ log.record moment happenings ↔
      entry ∈ log ∨ entry.1 = moment ∧ entry.2 ∈ happenings := by
  rcases entry with ⟨stamp, happening⟩
  simp only [record, List.mem_append, List.mem_map, Prod.mk.injEq]
  constructor
  · rintro (old | ⟨same, member, rfl, rfl⟩)
    · exact .inl old
    · exact .inr ⟨rfl, member⟩
  · rintro (old | ⟨rfl, member⟩)
    · exact .inl old
    · exact .inr ⟨happening, member, rfl, rfl⟩

theorem moments_record_of_notMem {log : Log} {moment : Nat} {happenings : List Happening}
    {happening : Happening} (silent : happening ∉ happenings) :
    (log.record moment happenings).moments happening = log.moments happening := by
  rw [moments, record, List.filterMap_append]
  refine (congrArg _ (List.filterMap_eq_nil_iff.mpr ?_)).trans (List.append_nil _)
  intro entry member
  obtain ⟨other, listed, rfl⟩ := List.mem_map.mp member
  refine if_neg fun same : other = happening => ?_
  exact silent (same ▸ listed)

theorem moments_record_of_ne {happening other : Happening} (apart : happening ≠ other) (log : Log)
    (moment : Nat) : (log.record moment [other]).moments happening = log.moments happening :=
  moments_record_of_notMem fun member => apart (List.mem_singleton.mp member)

theorem mem_record_of_ne {happening other : Happening} (apart : happening ≠ other) {log : Log}
    {moment stamp : Nat} :
    (stamp, happening) ∈ log.record moment [other] ↔ (stamp, happening) ∈ log := by
  rw [mem_record]
  refine ⟨fun member => member.resolve_right fun happens => apart ?_, .inl⟩
  exact List.mem_singleton.mp happens.2

theorem moments_record_self (log : Log) (moment : Nat) (happening : Happening) :
    (log.record moment [happening]).moments happening = log.moments happening ++ [moment] := by
  simp [moments, record]

theorem moments_eq_nil {log : Log} {happening : Happening}
    (silent : ∀ moment, (moment, happening) ∉ log) : log.moments happening = [] := by
  refine List.filterMap_eq_nil_iff.mpr fun entry member => if_neg fun same => ?_
  exact silent entry.1 (same ▸ member)

end Log

/-! ## What one tick leaves -/

/-- A timer that is live was live before, unless it has just been armed. -/
theorem Tick.timer_origin {before after : Snapshot α} {happenings : List Happening}
    (tick : Tick before happenings after) {timer : Timer}
    (live : timer ∈ after.scheduler.timers) :
    (∃ old ∈ before.scheduler.timers, old.id = timer.id) ∨
      ∃ delay repeats, .armed timer.id delay repeats ∈ happenings := by
  cases tick with
  | arm delay task repeats =>
      rcases List.mem_append.mp live with old | new
      · exact .inl ⟨timer, old, rfl⟩
      · rw [List.mem_singleton.mp new]
        exact .inr ⟨delay, repeats, List.mem_cons_self⟩
  | cancel id =>
      rcases List.mem_map.mp live with ⟨old, member, becomes⟩
      refine .inl ⟨old, member, ?_⟩
      rw [← becomes]
      split <;> rfl
  | fire other member =>
      rcases mem_timers_fire live with old | ⟨named, -⟩
      · exact .inl ⟨timer, old, rfl⟩
      · exact .inl ⟨other, member, named.symm⟩
  | retire other => exact .inl ⟨timer, (List.mem_filter.mp live).1, rfl⟩
  | next ready =>
      rcases next_frame ready with ⟨queue, answered⟩
      rw [answered] at live
      exact .inl ⟨timer, live, rfl⟩
  | take job =>
      rcases before.scheduler.take_frame job with ⟨tasks, taken⟩
      rw [taken] at live
      exact .inl ⟨timer, live, rfl⟩
  | _ => exact .inl ⟨timer, live, rfl⟩

/-- What happens to a timer happens to a live one, or the timer is armed under a new number. -/
theorem Tick.happening_origin {before after : Snapshot α} {happenings : List Happening}
    (tick : Tick before happenings after) {happening : Happening} {id : Nat}
    (happens : happening ∈ happenings) (named : happening.timer? = some id) :
    (∃ timer ∈ before.scheduler.timers, timer.id = id) ∨
      id < after.scheduler.nextId ∧ ∃ delay repeats, happening = .armed id delay repeats := by
  cases tick with
  | pass moment allowed => cases happens
  | enqueue task =>
      cases List.mem_singleton.mp happens
      cases named
  | arm delay task repeats =>
      cases List.mem_singleton.mp happens
      cases named
      exact .inr ⟨Nat.lt_succ_self _, delay, repeats, rfl⟩
  | refuse => cases happens
  | cancel number =>
      split at happens
      · rename_i found
        cases List.mem_singleton.mp happens
        cases named
        rcases Option.isSome_iff_exists.mp found with ⟨timer, found⟩
        exact .inl ⟨timer, List.mem_of_find?_eq_some found, by simpa using List.find?_some found⟩
      · cases happens
  | fallDue timer live =>
      cases List.mem_singleton.mp happens
      cases named
      exact .inl ⟨timer, live, rfl⟩
  | giveUp timer live => cases happens
  | fire timer live =>
      cases List.mem_singleton.mp happens
      cases named
      exact .inl ⟨timer, live, rfl⟩
  | retire timer live => cases happens
  | next ready =>
      rcases List.mem_map.mp happens with ⟨job, -, rfl⟩
      cases named
  | take job => cases happens

theorem Tick.nextId_le {before after : Snapshot α} {happenings : List Happening}
    (tick : Tick before happenings after) :
    before.scheduler.nextId ≤ after.scheduler.nextId := by
  cases tick with
  | enqueue task => exact Nat.le_succ _
  | arm delay task repeats => exact Nat.le_succ _
  | refuse => exact Nat.le_succ _
  | fire timer =>
      rcases before.scheduler.fire_frame timer with ⟨timers, fired⟩
      exact Nat.le_of_eq (by rw [Snapshot.scheduler_fired, fired])
  | next ready =>
      rcases next_frame ready with ⟨queue, answered⟩
      exact Nat.le_of_eq (by rw [answered])
  | take job =>
      rcases before.scheduler.take_frame job with ⟨tasks, taken⟩
      exact Nat.le_of_eq (by rw [taken])
  | _ => exact Nat.le_refl _

theorem Tick.now_le {before after : Snapshot α} {happenings : List Happening}
    (tick : Tick before happenings after) : before.scheduler.now ≤ after.scheduler.now := by
  rcases tick.step with ⟨moment, -, -, rfl⟩ | ⟨-, same⟩
  · exact Nat.le_max_left _ _
  · exact Nat.le_of_eq same.symm

/-- The queue is given out at its front and grows at its end. -/
theorem Tick.queue {before after : Snapshot α} {happenings : List Happening}
    (tick : Tick before happenings after) :
    happenings.filterMap Happening.returned? ++ after.scheduler.queue =
      before.scheduler.queue ++ happenings.filterMap Happening.queued? := by
  cases tick with
  | enqueue task => rfl
  | cancel id =>
      split
      · exact (List.append_nil _).symm
      · exact (List.append_nil _).symm
  | fire timer => exact queue_fire before.scheduler timer
  | next ready =>
      rw [Scheduler.next]
      rcases nextWithin_cases ready (before.scheduler.timers.length + 1) with
        ⟨job, queue, queued, answer⟩ | ⟨empty, -, answer⟩
      · rw [answer, queued]
        exact (List.append_nil _).symm
      · rw [answer, empty]
        rfl
  | take job =>
      rcases before.scheduler.take_frame job with ⟨tasks, taken⟩
      rw [taken]
      exact (List.append_nil _).symm
  | _ => exact (List.append_nil _).symm

theorem Tick.length_le {before after : Snapshot α} {happenings : List Happening}
    (tick : Tick before happenings after) : happenings.length ≤ 1 := by
  cases tick with
  | cancel id =>
      split
      · exact Nat.le_refl 1
      · exact Nat.zero_le 1
  | next ready =>
      rw [List.length_map]
      exact Option.length_toList_le
  | _ => simp

namespace TimedRun

variable {sliceMillis : Nat} {log : Log} {now : Snapshot α}

/-- Live timers were armed. -/
theorem armed (run : TimedRun sliceMillis log now) :
    ∀ timer ∈ now.scheduler.timers, ∃ moment delay repeats,
      (moment, .armed timer.id delay repeats) ∈ log := by
  induction run with
  | start => exact fun _ live => absurd live List.not_mem_nil
  | tick run tick ih =>
      intro timer live
      rcases tick.timer_origin live with ⟨old, member, named⟩ | ⟨delay, repeats, happens⟩
      · rcases ih old member with ⟨moment, delay, repeats, earlier⟩
        exact ⟨moment, delay, repeats, Log.mem_record.mpr (.inl (named ▸ earlier))⟩
      · exact ⟨_, delay, repeats, Log.mem_record.mpr (.inr ⟨rfl, happens⟩)⟩

/-- The log names only numbers that were given out. -/
theorem issued (run : TimedRun sliceMillis log now) {entry : Nat × Happening}
    (member : entry ∈ log) {id : Nat} (named : entry.2.timer? = some id) :
    id < now.scheduler.nextId := by
  induction run generalizing entry id with
  | start => cases member
  | @tick log before after happenings run tick ih =>
      rcases Log.mem_record.mp member with earlier | ⟨-, happens⟩
      · exact Nat.lt_of_lt_of_le (ih earlier named) tick.nextId_le
      · rcases tick.happening_origin happens named with ⟨timer, live, rfl⟩ | ⟨new, -⟩
        · rcases run.armed timer live with ⟨moment, delay, repeats, earlier⟩
          exact Nat.lt_of_lt_of_le (ih earlier rfl) tick.nextId_le
        · exact new

theorem live_issued (run : TimedRun sliceMillis log now) {timer : Timer}
    (live : timer ∈ now.scheduler.timers) : timer.id < now.scheduler.nextId := by
  rcases run.armed timer live with ⟨moment, delay, repeats, earlier⟩
  exact run.issued earlier rfl

/-- A job of a timer is queued only if the timer was armed. -/
theorem queued_armed (run : TimedRun sliceMillis log now) {moment id : Nat}
    (queued : (moment, .queued (.timerFired id)) ∈ log) :
    ∃ moment delay repeats, (moment, .armed id delay repeats) ∈ log := by
  induction run with
  | start => cases queued
  | @tick log before after happenings run tick ih =>
      have kept {id} : (∃ moment delay repeats, (moment, .armed id delay repeats) ∈ log) →
          ∃ moment delay repeats, (moment, .armed id delay repeats) ∈
            log.record before.scheduler.now happenings :=
        fun ⟨moment, delay, repeats, earlier⟩ =>
          ⟨moment, delay, repeats, Log.mem_record.mpr (.inl earlier)⟩
      rcases Log.mem_record.mp queued with earlier | ⟨-, happens⟩
      · exact kept (ih earlier)
      · rcases tick.happening_origin happens rfl with ⟨timer, live, rfl⟩ | ⟨-, _, _, impossible⟩
        · exact kept (run.armed timer live)
        · cases impossible

/-- What the log says has happened by now. -/
theorem past (run : TimedRun sliceMillis log now) :
    ∀ entry ∈ log, entry.1 ≤ now.scheduler.now := by
  induction run with
  | start => exact fun _ member => absurd member List.not_mem_nil
  | tick run tick ih =>
      intro entry member
      rcases Log.mem_record.mp member with earlier | ⟨same, -⟩
      · exact Nat.le_trans (ih entry earlier) tick.now_le
      · exact same ▸ tick.now_le

/-- The log is in the order of time. -/
theorem chronological (run : TimedRun sliceMillis log now) :
    log.Pairwise fun first second => first.1 ≤ second.1 := by
  induction run with
  | start => exact .nil
  | @tick log before after happenings run tick ih =>
      refine List.pairwise_append.mpr ⟨ih, ?_, ?_⟩
      · exact List.pairwise_map.mpr (List.pairwise_of_forall fun _ _ => Nat.le_refl _)
      · intro first member second new
        obtain ⟨happening, -, rfl⟩ := List.mem_map.mp new
        exact run.past first member

/-- What was given out, with what is still queued, is what was queued, in the same order. -/
theorem returned_queue (run : TimedRun sliceMillis log now) :
    log.returns ++ now.scheduler.queue = log.queuings.map Prod.snd := by
  induction run with
  | start => rfl
  | @tick log before after happenings run tick ih =>
      have returns : (log.record before.scheduler.now happenings).returns =
          log.returns ++ happenings.filterMap Happening.returned? := by
        simp only [Log.returns, Log.record, List.filterMap_append, List.filterMap_map]
        rfl
      have queuings : (log.record before.scheduler.now happenings).queuings.map Prod.snd =
          log.queuings.map Prod.snd ++ happenings.filterMap Happening.queued? := by
        simp [Log.queuings, Log.record, List.filterMap_map, List.map_filterMap, Function.comp_def]
      calc (log.record before.scheduler.now happenings).returns ++ after.scheduler.queue
          = log.returns ++ (before.scheduler.queue ++ happenings.filterMap Happening.queued?) := by
            rw [returns, List.append_assoc, tick.queue]
        _ = (log.record before.scheduler.now happenings).queuings.map Prod.snd := by
            rw [queuings, ← ih, List.append_assoc]

/-- Nothing happens together with something else, so every part of the log that is a front of it
was the log of an earlier run. -/
theorem front (run : TimedRun sliceMillis log now) {earlier later : Log}
    (parts : log = earlier ++ later) :
    ∃ middle : Snapshot α, TimedRun sliceMillis earlier middle := by
  induction run generalizing later with
  | start =>
      cases (List.append_eq_nil_iff.mp parts.symm).1
      exact ⟨_, .start⟩
  | @tick log before after happenings run tick ih =>
      rcases List.eq_nil_or_concat later with rfl | ⟨front, last, rfl⟩
      · rw [List.append_nil] at parts
        exact ⟨after, parts ▸ run.tick tick⟩
      · rw [List.concat_eq_append] at parts
        have single := tick.length_le
        cases happenings with
        | nil => exact ih ((Log.record_nil _ _).symm.trans parts)
        | cons happening others =>
            cases List.length_eq_zero_iff.mp (Nat.le_zero.mp (Nat.le_of_succ_le_succ single))
            have split : log ++ [(before.scheduler.now, happening)] = earlier ++ front ++ [last] :=
              parts.trans (List.append_assoc ..).symm
            exact ih (List.append_inj' split rfl).1

/-- The jobs that are queued at some point are given out before those that are queued later. -/
theorem returned_first (run : TimedRun sliceMillis log now) {earlier later : Log}
    (parts : log = earlier ++ later) :
    ∃ waiting, earlier.returns ++ waiting = earlier.queuings.map Prod.snd ∧
      later.returns ++ now.scheduler.queue = waiting ++ later.queuings.map Prod.snd := by
  rcases run.front parts with ⟨middle, reached⟩
  have begun := reached.returned_queue
  refine ⟨middle.scheduler.queue, begun, ?_⟩
  have whole := run.returned_queue
  rw [parts, Log.returns_append, Log.queuings_append, List.map_append, ← begun,
    List.append_assoc, List.append_assoc] at whole
  exact List.append_cancel_left whole

end TimedRun

end Scheduler

end Hati
