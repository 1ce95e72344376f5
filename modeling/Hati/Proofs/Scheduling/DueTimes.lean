import Hati.Proofs.Scheduling.TimedRuns

namespace Hati

/-!
# How a timer stands

A timer that was armed is in one of three states.  It waits for the next moment at which it is
due; or this moment has come and the job is still to be queued; or it will not be due again,
since it was cancelled or has fired and does not repeat.  In each state the log tells exactly at
which moments the timer has woken and queued its job, and every tick leads from one of the
states to another.

The thread of a timer finds its next deadline by adding the period to the moment at which it
has queued the job.  No time passes between the deadline and this moment, so the deadlines do
not drift.
-/

namespace Scheduler

variable {α : Type}

/-- The moment at which a timer is due after it has been due `count` times.  A timer that
repeats waits for its delay first and for its period from then on. -/
def dueTime (armed delay count : Nat) : Nat :=
  armed + delay + count * max delay nanosPerMilli

/-- The first `count` moments at which a timer is due. -/
def dueTimes (armed delay count : Nat) : List Nat :=
  (List.range count).map (dueTime armed delay)

theorem dueTimes_succ (armed delay count : Nat) :
    dueTimes armed delay (count + 1) =
      dueTimes armed delay count ++ [dueTime armed delay count] := by
  rw [dueTimes, List.range_succ, List.map_append]
  rfl

theorem dueTime_succ (armed delay count : Nat) :
    dueTime armed delay (count + 1) = dueTime armed delay count + max delay nanosPerMilli := by
  rw [dueTime, dueTime, Nat.succ_mul, Nat.add_assoc _ _ (max delay nanosPerMilli)]

theorem dueTime_le_succ (armed delay count : Nat) :
    dueTime armed delay count ≤ dueTime armed delay (count + 1) := by
  rw [dueTime_succ]
  exact Nat.le_add_right _ _

/-- The timer was armed to be due at its times, after it has been due `count` times. -/
structure IsSet (timer : Timer) (armed delay : Nat) (repeats : Bool) (count : Nat) : Prop where
  deadline : timer.deadline = dueTime armed delay count
  period : timer.period = if repeats then some (max delay nanosPerMilli) else none

/-! ## Changes to timers -/

section Timers

variable {scheduler : Scheduler α} {timer other : Timer} {id : Nat}

theorem isSome_timer? (live : ∃ timer ∈ scheduler.timers, timer.id = id) :
    (scheduler.timer? id).isSome = true := by
  rcases live with ⟨timer, member, named⟩
  exact List.find?_isSome.mpr ⟨timer, member, beq_iff_eq.mpr named⟩

theorem mem_timers_cancel_of_ne (apart : timer.id ≠ id) :
    timer ∈ (scheduler.cancel id).2.timers ↔ timer ∈ scheduler.timers := by
  constructor
  · intro member
    rcases List.mem_map.mp member with ⟨old, live, becomes⟩
    split at becomes
    · rename_i own
      have named : old.id = id := beq_iff_eq.mp (Bool.and_eq_true_iff.mp own).1
      exact absurd (becomes ▸ named) apart
    · exact becomes ▸ live
  · intro live
    refine List.mem_map.mpr ⟨timer, live, if_neg fun own => ?_⟩
    exact apart (beq_iff_eq.mp (Bool.and_eq_true_iff.mp own).1)

/-- The timers of the number are cancelled, and otherwise as they were. -/
theorem of_mem_timers_cancel (member : timer ∈ (scheduler.cancel id).2.timers)
    (named : timer.id = id) :
    timer.cancelledAt ≠ none ∧ ∃ old ∈ scheduler.timers, old.id = id ∧
      old.deadline = timer.deadline ∧ old.period = timer.period := by
  rcases List.mem_map.mp member with ⟨old, live, becomes⟩
  split at becomes
  · subst becomes
    exact ⟨nofun, old, live, named, rfl, rfl⟩
  · rename_i kept
    subst becomes
    refine ⟨fun unmarked => kept ?_, old, live, named, rfl, rfl⟩
    simp [named, unmarked]

theorem exists_mem_timers_cancel (live : ∃ timer ∈ scheduler.timers, timer.id = id) (other : Nat) :
    ∃ timer ∈ (scheduler.cancel other).2.timers, timer.id = id := by
  rcases live with ⟨timer, member, named⟩
  refine ⟨_, List.mem_map_of_mem member, ?_⟩
  split
  · exact named
  · exact named

theorem mem_timers_fire_iff_of_ne (apart : other.id ≠ timer.id) :
    other ∈ (scheduler.fire timer).timers ↔ other ∈ scheduler.timers := by
  constructor
  · intro member
    rcases mem_timers_fire member with live | ⟨named, -⟩
    · exact live
    · exact absurd named apart
  · exact fun live => mem_timers_fire_of_ne live apart

/-- A timer that repeats waits again from now on. -/
theorem mem_timers_fire_self {period : Nat} (repeats : timer.period = some period)
    (live : timer ∈ scheduler.timers) (named : other.id = timer.id) :
    other ∈ (scheduler.fire timer).timers ↔
      other = { timer with since := scheduler.now, deadline := scheduler.now + period } := by
  have timers : (scheduler.fire timer).timers = scheduler.timers.map fun old =>
      if old.id == timer.id then
        { timer with since := scheduler.now, deadline := scheduler.now + period }
      else old := by
    rw [Scheduler.fire, repeats]
  rw [timers, List.mem_map]
  constructor
  · rintro ⟨old, member, becomes⟩
    split at becomes
    · exact becomes.symm
    · rename_i apart
      exact absurd (beq_iff_eq.mpr (becomes ▸ named)) apart
  · rintro rfl
    exact ⟨timer, live, if_pos (beq_self_eq_true _)⟩

theorem timers_fire_of_once (once : timer.period = none) :
    (scheduler.fire timer).timers = scheduler.timers := by
  rw [Scheduler.fire, once]

theorem now_fire : (scheduler.fire timer).now = scheduler.now := by
  rcases scheduler.fire_frame timer with ⟨timers, fired⟩
  rw [fired]

end Timers

/-! ## How a timer stands -/

/-- How a timer stands that has queued its job `count` times, and what the log says of it. -/
inductive Standing (log : Log) (now : Snapshot α) (id armed delay : Nat) (repeats : Bool)
    (count : Nat) : Prop where
  /-- It waits for the next moment at which it is due. -/
  | pending (waits : now.phase id = .waiting) (live : ∃ timer ∈ now.scheduler.timers, timer.id = id)
    (set : ∀ timer ∈ now.scheduler.timers, timer.id = id →
      timer.cancelledAt = none ∧ IsSet timer armed delay repeats count)
    (ahead : now.scheduler.now ≤ dueTime armed delay count)
    (wanted : ∀ moment, (moment, .cancelled id) ∉ log) (remains : repeats = true ∨ count = 0)
    (wakings : log.moments (.woke id) = dueTimes armed delay count)
    (firings : log.moments (.queued (.timerFired id)) = dueTimes armed delay count)
  /-- It is due now, and the job is not queued yet. -/
  | due (due : now.phase id = .due) (live : ∃ timer ∈ now.scheduler.timers, timer.id = id)
    (set : ∀ timer ∈ now.scheduler.timers, timer.id = id →
      IsSet timer armed delay repeats count ∧
        (timer.cancelledAt = none → ∀ moment, (moment, .cancelled id) ∉ log) ∧
        (timer.cancelledAt ≠ none → (now.scheduler.now, .cancelled id) ∈ log))
    (reached : now.scheduler.now = dueTime armed delay count)
    (remains : repeats = true ∨ count = 0)
    (wakings : log.moments (.woke id) = dueTimes armed delay (count + 1))
    (firings : log.moments (.queued (.timerFired id)) = dueTimes armed delay count)
  /-- It will not be due again. -/
  | finished (quiet : now.phase id ≠ .due)
    (unwanted : now.phase id = .waiting → ∀ timer ∈ now.scheduler.timers, timer.id = id →
      timer.cancelledAt ≠ none)
    (why : repeats = false ∧ count = 1 ∨
      ∃ moment ≤ dueTime armed delay count, (moment, .cancelled id) ∈ log)
    (once : repeats = false → count ≤ 1)
    (wakings : log.moments (.woke id) = dueTimes armed delay count)
    (firings : log.moments (.queued (.timerFired id)) = dueTimes armed delay count)

/-- A tick that has nothing to do with a timer. -/
structure Spares (before after : Snapshot α) (happenings : List Happening) (id : Nat) : Prop where
  clock : after.scheduler.now = before.scheduler.now
  phase : after.phase id = before.phase id
  timers : ∀ timer : Timer, timer.id = id →
    (timer ∈ after.scheduler.timers ↔ timer ∈ before.scheduler.timers)
  silent : ∀ happening ∈ happenings, happening.timer? ≠ some id

namespace Spares

variable {before after : Snapshot α} {happenings : List Happening} {id : Nat}

theorem live (spares : Spares before after happenings id)
    (live : ∃ timer ∈ before.scheduler.timers, timer.id = id) :
    ∃ timer ∈ after.scheduler.timers, timer.id = id := by
  rcases live with ⟨timer, member, named⟩
  exact ⟨timer, (spares.timers timer named).mpr member, named⟩

theorem moments (spares : Spares before after happenings id) (happening : Happening)
    (own : happening.timer? = some id) (log : Log) (moment : Nat) :
    (log.record moment happenings).moments happening = log.moments happening :=
  Log.moments_record_of_notMem fun happens => spares.silent happening happens own

theorem mem_record (spares : Spares before after happenings id) (happening : Happening)
    (own : happening.timer? = some id) (log : Log) (moment stamp : Nat) :
    (stamp, happening) ∈ log.record moment happenings ↔ (stamp, happening) ∈ log := by
  rw [Log.mem_record]
  refine ⟨fun member => member.resolve_right fun happens => ?_, .inl⟩
  exact spares.silent happening happens.2 own

end Spares

namespace Standing

variable {log : Log} {before after : Snapshot α} {happenings : List Happening}
  {id armed delay : Nat} {repeats : Bool} {count : Nat}

theorem spared (standing : Standing log before id armed delay repeats count)
    (spares : Spares before after happenings id) (moment : Nat) :
    Standing (log.record moment happenings) after id armed delay repeats count := by
  have wakes := spares.moments (.woke id) rfl log moment
  have fires := spares.moments (.queued (.timerFired id)) rfl log moment
  have cancels := spares.mem_record (.cancelled id) rfl log moment
  cases standing with
  | pending waits live set ahead wanted remains wakings firings =>
      refine .pending (spares.phase.trans waits) (spares.live live) ?_ (spares.clock ▸ ahead) ?_
        remains (wakes.trans wakings) (fires.trans firings)
      · exact fun timer member named => set timer ((spares.timers timer named).mp member) named
      · exact fun stamp cancelled => wanted stamp ((cancels stamp).mp cancelled)
  | due due live set reached remains wakings firings =>
      refine .due (spares.phase.trans due) (spares.live live) ?_ (spares.clock.trans reached)
        remains (wakes.trans wakings) (fires.trans firings)
      intro timer member named
      rcases set timer ((spares.timers timer named).mp member) named with ⟨isSet, wanted, unwanted⟩
      refine ⟨isSet, fun unmarked stamp cancelled => ?_, fun marked => ?_⟩
      · exact wanted unmarked stamp ((cancels stamp).mp cancelled)
      · rw [spares.clock]
        exact (cancels _).mpr (unwanted marked)
  | finished quiet unwanted why once wakings firings =>
      refine .finished (spares.phase.symm ▸ quiet) ?_ ?_ once (wakes.trans wakings)
        (fires.trans firings)
      · intro waits timer member named
        exact unwanted (spares.phase ▸ waits) timer ((spares.timers timer named).mp member) named
      · refine why.imp_right fun ⟨stamp, early, cancelled⟩ => ⟨stamp, early, ?_⟩
        exact (cancels stamp).mpr cancelled

theorem pass (standing : Standing log before id armed delay repeats count) {moment : Nat}
    (allowed : before.MayPass moment) :
    Standing log { before with scheduler := before.scheduler.advance moment } id armed delay
      repeats count := by
  have clock : (before.scheduler.advance moment).now = moment := Nat.max_eq_right allowed.1
  cases standing with
  | pending waits live set ahead wanted remains wakings firings =>
      refine .pending waits live set ?_ wanted remains wakings firings
      rcases live with ⟨timer, member, rfl⟩
      rcases set timer member rfl with ⟨unmarked, isSet⟩
      have early := (allowed.2 timer member).2 waits unmarked
      exact Nat.le_trans (Nat.le_of_eq clock) (isSet.deadline ▸ early)
  | due due live =>
      rcases live with ⟨timer, member, rfl⟩
      exact absurd due (allowed.2 timer member).1
  | finished quiet unwanted why once wakings firings =>
      exact .finished quiet unwanted why once wakings firings

theorem cancel (standing : Standing log before id armed delay repeats count) :
    Standing
      (log.record before.scheduler.now
        (if (before.scheduler.cancel id).1 then [.cancelled id] else []))
      { before with scheduler := (before.scheduler.cancel id).2 } id armed delay repeats count := by
  have same (happening : Happening) (other : happening ≠ .cancelled id) :
      (log.record before.scheduler.now
        (if (before.scheduler.cancel id).1 then [.cancelled id] else [])).moments happening =
        log.moments happening := by
    refine Log.moments_record_of_notMem fun member => ?_
    split at member
    · exact other (List.mem_singleton.mp member)
    · cases member
  have logged (live : ∃ timer ∈ before.scheduler.timers, timer.id = id) :
      (before.scheduler.now, .cancelled id) ∈ log.record before.scheduler.now
        (if (before.scheduler.cancel id).1 then [.cancelled id] else []) := by
    have found : (before.scheduler.cancel id).1 = true := isSome_timer? live
    rw [if_pos found]
    exact Log.mem_record.mpr (.inr ⟨rfl, List.mem_cons_self⟩)
  have wakes := same (.woke id) nofun
  have fires := same (.queued (.timerFired id)) nofun
  cases standing with
  | pending waits live set ahead wanted remains wakings firings =>
      refine .finished ?_ ?_ ?_ ?_ (wakes.trans wakings) (fires.trans firings)
      · exact fun due => Phase.noConfusion (waits.symm.trans due)
      · exact fun _ timer member named => (of_mem_timers_cancel member named).1
      · exact .inr ⟨_, ahead, logged live⟩
      · intro single
        rcases remains with again | first
        · exact absurd (again.symm.trans single) nofun
        · exact first ▸ Nat.zero_le 1
  | due due live set reached remains wakings firings =>
      refine .due due (exists_mem_timers_cancel live id) ?_ reached remains (wakes.trans wakings)
        (fires.trans firings)
      intro timer member named
      rcases of_mem_timers_cancel member named with ⟨marked, old, present, own, deadline, period⟩
      have isSet := (set old present own).1
      refine ⟨⟨?_, ?_⟩, fun unmarked => absurd unmarked marked, fun _ => logged live⟩
      · exact deadline ▸ isSet.deadline
      · exact period ▸ isSet.period
  | finished quiet unwanted why once wakings firings =>
      refine .finished quiet ?_ ?_ once (wakes.trans wakings) (fires.trans firings)
      · exact fun _ timer member named => (of_mem_timers_cancel member named).1
      · refine why.imp_right fun ⟨stamp, early, cancelled⟩ => ⟨stamp, early, ?_⟩
        exact Log.mem_record.mpr (.inl cancelled)

/-- A timer that comes to its deadline was pending. -/
theorem fallDue {timer : Timer} (standing : Standing log before timer.id armed delay repeats count)
    (live : timer ∈ before.scheduler.timers) (waits : before.phase timer.id = .waiting)
    (unmarked : timer.cancelledAt = none) (reached : timer.deadline = before.scheduler.now) :
    (∀ moment, (moment, .cancelled timer.id) ∉ log) ∧
      Standing (log.record before.scheduler.now [.woke timer.id]) (before.enter timer.id .due)
        timer.id armed delay repeats count := by
  cases standing with
  | pending _ present set ahead wanted remains wakings firings =>
      have moment : before.scheduler.now = dueTime armed delay count :=
        reached.symm.trans (set timer live rfl).2.deadline
      refine ⟨wanted, .due (if_pos rfl) present ?_ moment remains ?_ ?_⟩
      · intro other member named
        rcases set other member named with ⟨kept, isSet⟩
        refine ⟨isSet, fun _ stamp cancelled => ?_, fun marked => absurd kept marked⟩
        exact wanted stamp ((Log.mem_record_of_ne (by nofun)).mp cancelled)
      · rw [Log.moments_record_self, wakings, moment, dueTimes_succ]
      · exact (Log.moments_record_of_ne (by nofun) log _).trans firings
  | due due => exact Phase.noConfusion (waits.symm.trans due)
  | finished _ unwanted => exact absurd unmarked (unwanted waits timer live rfl)

theorem giveUp {timer : Timer} (standing : Standing log before timer.id armed delay repeats count)
    (live : timer ∈ before.scheduler.timers) (waits : before.phase timer.id = .waiting)
    (marked : timer.cancelledAt ≠ none) :
    Standing log (before.enter timer.id .leaving) timer.id armed delay repeats count := by
  have leaves : (before.enter timer.id .leaving).phase timer.id = .leaving := if_pos rfl
  cases standing with
  | pending _ _ set => exact absurd (set timer live rfl).1 marked
  | due due => exact Phase.noConfusion (waits.symm.trans due)
  | finished quiet unwanted why once wakings firings =>
      refine .finished ?_ ?_ why once wakings firings
      · rw [leaves]
        exact Phase.noConfusion
      · rw [leaves]
        exact Phase.noConfusion

/-- A thread that queues its job has been due, and it does so at the moment at which it was. -/
theorem fire {timer : Timer} (standing : Standing log before timer.id armed delay repeats count)
    (live : timer ∈ before.scheduler.timers) (due : before.phase timer.id = .due) :
    Standing (log.record before.scheduler.now [.queued (.timerFired timer.id)])
      (before.fired timer) timer.id armed delay repeats (count + 1) := by
  cases standing with
  | pending waits => exact Phase.noConfusion (waits.symm.trans due)
  | finished quiet => exact absurd due quiet
  | due _ present set reached remains wakings firings =>
      rcases set timer live rfl with ⟨isSet, wanted, unwanted⟩
      have wakes : (log.record before.scheduler.now [.queued (.timerFired timer.id)]).moments
          (.woke timer.id) = dueTimes armed delay (count + 1) :=
        (Log.moments_record_of_ne (by nofun) log _).trans wakings
      have fires : (log.record before.scheduler.now [.queued (.timerFired timer.id)]).moments
          (.queued (.timerFired timer.id)) = dueTimes armed delay (count + 1) := by
        rw [Log.moments_record_self, firings, reached, dueTimes_succ]
      have enters : (before.fired timer).phase timer.id =
          if timer.period.isSome then .waiting else .leaving := if_pos rfl
      cases repeats with
      | false =>
          have once : timer.period = none := isSet.period
          have first : count = 0 := remains.resolve_left nofun
          have leaves : (before.fired timer).phase timer.id = .leaving := by rw [enters, once]; rfl
          subst first
          refine .finished ?_ ?_ (.inl ⟨rfl, rfl⟩) (fun _ => Nat.le_refl 1) wakes fires
          · rw [leaves]
            exact Phase.noConfusion
          · rw [leaves]
            exact Phase.noConfusion
      | true =>
          have again : timer.period = some (max delay nanosPerMilli) := isSet.period
          have waits : (before.fired timer).phase timer.id = .waiting := by rw [enters, again]; rfl
          let reset : Timer := { timer with
            since := before.scheduler.now
            deadline := before.scheduler.now + max delay nanosPerMilli }
          have becomes (other : Timer) (named : other.id = timer.id) :
              other ∈ (before.fired timer).scheduler.timers ↔ other = reset :=
            mem_timers_fire_self again live named
          have next : reset.deadline = dueTime armed delay (count + 1) := by
            rw [dueTime_succ, ← reached]
          cases marked : timer.cancelledAt with
          | none =>
              refine .pending waits ⟨reset, (becomes reset rfl).mpr rfl, rfl⟩ ?_ ?_ ?_ (.inl rfl)
                wakes fires
              · intro other member named
                rw [(becomes other named).mp member]
                exact ⟨marked, next, again⟩
              · have clock : (before.fired timer).scheduler.now = before.scheduler.now := now_fire
                rw [clock, reached]
                exact dueTime_le_succ armed delay count
              · exact fun stamp cancelled =>
                  wanted marked stamp ((Log.mem_record_of_ne (by nofun)).mp cancelled)
          | some stamp =>
              have cancelled := unwanted (by rw [marked]; nofun)
              refine .finished ?_ ?_
                (.inr ⟨_, ?_, (Log.mem_record_of_ne (by nofun)).mpr cancelled⟩) nofun wakes fires
              · rw [waits]
                exact Phase.noConfusion
              · intro _ other member named
                rw [(becomes other named).mp member]
                exact fun unmarked => nomatch marked.symm.trans unmarked
              · rw [reached]
                exact dueTime_le_succ armed delay count

theorem retire {timer : Timer} (standing : Standing log before timer.id armed delay repeats count)
    (leaves : before.phase timer.id = .leaving) :
    Standing log { before with scheduler := before.scheduler.retire timer.id } timer.id armed delay
      repeats count := by
  cases standing with
  | pending waits => exact Phase.noConfusion (waits.symm.trans leaves)
  | due due => exact Phase.noConfusion (due.symm.trans leaves)
  | finished quiet unwanted why once wakings firings =>
      refine .finished quiet (fun waits => ?_) why once wakings firings
      exact Phase.noConfusion (leaves.symm.trans waits)

/-- Whatever happens, the timer keeps its times. -/
theorem tick (standing : Standing log before id armed delay repeats count)
    (tick : Tick before happenings after) (issued : id < before.scheduler.nextId) :
    ∃ next, Standing (log.record before.scheduler.now happenings) after id armed delay repeats
      next := by
  have only {happening : Happening} (foreign : happening.timer? ≠ some id) :
      ∀ other ∈ [happening], other.timer? ≠ some id :=
    fun other member => List.mem_singleton.mp member ▸ foreign
  have nothing : ∀ other ∈ ([] : List Happening), other.timer? ≠ some id :=
    fun _ impossible => absurd impossible List.not_mem_nil
  cases tick with
  | pass moment allowed =>
      rw [Log.record_nil]
      exact ⟨count, standing.pass allowed⟩
  | enqueue task =>
      refine ⟨count, standing.spared ?_ _⟩
      exact ⟨rfl, rfl, fun _ _ => Iff.rfl, only (nofun : none ≠ some id)⟩
  | arm wait task again =>
      have apart : id ≠ before.scheduler.nextId := Nat.ne_of_lt issued
      refine ⟨count, standing.spared ?_ _⟩
      refine ⟨rfl, if_neg apart, fun timer named => ?_, only ?_⟩
      · refine ⟨fun member => ?_, List.mem_append_left _⟩
        refine (List.mem_append.mp member).resolve_right fun new => apart ?_
        rw [← named, List.mem_singleton.mp new]
      · exact fun same => apart (Option.some.inj same).symm
  | refuse =>
      refine ⟨count, standing.spared ?_ _⟩
      exact ⟨rfl, rfl, fun _ _ => Iff.rfl, nothing⟩
  | cancel other =>
      by_cases own : other = id
      · subst own
        exact ⟨count, standing.cancel⟩
      · refine ⟨count, standing.spared ?_ _⟩
        refine ⟨rfl, rfl, fun timer named => ?_, ?_⟩
        · exact mem_timers_cancel_of_ne fun same => own (same.symm.trans named)
        · split
          · exact only fun same => own (Option.some.inj same)
          · exact nothing
  | fallDue timer live waits unmarked reached =>
      by_cases own : timer.id = id
      · subst own
        exact ⟨count, (standing.fallDue live waits unmarked reached).2⟩
      · refine ⟨count, standing.spared ?_ _⟩
        refine ⟨rfl, if_neg (Ne.symm own), fun _ _ => Iff.rfl, only ?_⟩
        exact fun same => own (Option.some.inj same)
  | giveUp timer live waits marked =>
      by_cases own : timer.id = id
      · subst own
        rw [Log.record_nil]
        exact ⟨count, standing.giveUp live waits marked⟩
      · refine ⟨count, standing.spared ?_ _⟩
        exact ⟨rfl, if_neg (Ne.symm own), fun _ _ => Iff.rfl, nothing⟩
  | fire timer live due =>
      by_cases own : timer.id = id
      · subst own
        exact ⟨count + 1, standing.fire live due⟩
      · refine ⟨count, standing.spared ?_ _⟩
        refine ⟨now_fire, if_neg (Ne.symm own), fun other named => ?_, only ?_⟩
        · exact mem_timers_fire_iff_of_ne fun same => own (same.symm.trans named)
        · exact fun same => own (Option.some.inj same)
  | retire timer live leaves =>
      by_cases own : timer.id = id
      · subst own
        rw [Log.record_nil]
        exact ⟨count, standing.retire leaves⟩
      · refine ⟨count, standing.spared ?_ _⟩
        refine ⟨rfl, rfl, fun other named => ?_, nothing⟩
        refine ⟨fun member => (List.mem_filter.mp member).1, fun member => ?_⟩
        refine List.mem_filter.mpr ⟨member, ?_⟩
        simpa using fun same : other.id = timer.id => own (same.symm.trans named)
  | next ready =>
      rcases next_frame ready with ⟨queue, answered⟩
      refine ⟨count, standing.spared ?_ _⟩
      refine ⟨?_, rfl, fun timer _ => ?_, fun happening member => ?_⟩
      · rw [answered]
      · rw [answered]
      · rcases List.mem_map.mp member with ⟨job, -, rfl⟩
        exact nofun
  | take job =>
      rcases before.scheduler.take_frame job with ⟨tasks, taken⟩
      refine ⟨count, standing.spared ?_ _⟩
      refine ⟨?_, rfl, fun timer _ => ?_, nothing⟩
      · rw [taken]
      · rw [taken]

end Standing

namespace TimedRun

variable {sliceMillis : Nat} {log : Log} {now : Snapshot α}

/-- A timer that has just been armed waits for its first deadline. -/
theorem standing_arm (run : TimedRun sliceMillis log now) (delay : Nat) (task : Task α)
    (repeats : Bool) :
    Standing (log.record now.scheduler.now [.armed now.scheduler.nextId delay repeats])
      (Snapshot.enter { now with scheduler := (now.scheduler.arm delay task repeats).2 }
        now.scheduler.nextId .waiting)
      now.scheduler.nextId now.scheduler.now delay repeats 0 := by
  have silent {happening : Happening} (named : happening.timer? = some now.scheduler.nextId)
      (other : ¬happening = .armed now.scheduler.nextId delay repeats) (moment : Nat) :
      (moment, happening) ∉
        log.record now.scheduler.now [.armed now.scheduler.nextId delay repeats] := by
    intro member
    rcases Log.mem_record.mp member with earlier | ⟨-, new⟩
    · exact Nat.lt_irrefl _ (run.issued earlier named)
    · exact other (List.mem_singleton.mp new)
  refine .pending (if_pos rfl) ⟨_, List.mem_append_right _ List.mem_cons_self, rfl⟩ ?_ ?_
    (silent rfl nofun) (.inr rfl) (Log.moments_eq_nil (silent rfl nofun))
    (Log.moments_eq_nil (silent rfl nofun))
  · intro timer member named
    rcases List.mem_append.mp member with old | new
    · exact absurd named (Nat.ne_of_lt (run.live_issued old))
    · rw [List.mem_singleton.mp new]
      exact ⟨rfl, by simp [dueTime], rfl⟩
  · rw [dueTime, Nat.add_assoc]
    exact Nat.le_add_right _ _

/-- Every timer that was armed keeps its times. -/
theorem standing (run : TimedRun sliceMillis log now) {id armed delay : Nat} {repeats : Bool}
    (listed : (armed, .armed id delay repeats) ∈ log) :
    ∃ count, Standing log now id armed delay repeats count := by
  induction run with
  | start => cases listed
  | @tick log before after happenings run tick ih =>
      rcases Log.mem_record.mp listed with earlier | ⟨moment, new⟩
      · rcases ih earlier with ⟨count, standing⟩
        exact standing.tick tick (run.issued earlier rfl)
      · cases tick with
        | arm wait task again =>
            cases List.mem_singleton.mp new
            cases moment
            exact ⟨0, run.standing_arm delay task repeats⟩
        | cancel other =>
            split at new
            · cases List.mem_singleton.mp new
            · cases new
        | next ready =>
            rcases List.mem_map.mp new with ⟨job, -, impossible⟩
            cases impossible
        | _ =>
            first
            | cases List.mem_singleton.mp new
            | cases new

/-- A timer that waits and is wanted has not slept through its deadline. -/
theorem ahead (run : TimedRun sliceMillis log now) {timer : Timer}
    (live : timer ∈ now.scheduler.timers) (waits : now.phase timer.id = .waiting)
    (wanted : timer.cancelledAt = none) : now.scheduler.now ≤ timer.deadline := by
  rcases run.armed timer live with ⟨armed, delay, repeats, listed⟩
  rcases run.standing listed with ⟨count, standing⟩
  cases standing with
  | pending _ _ set ahead => exact (set timer live rfl).2.deadline ▸ ahead
  | due due => exact Phase.noConfusion (waits.symm.trans due)
  | finished _ unwanted => exact absurd wanted (unwanted waits timer live rfl)

end TimedRun

end Scheduler

end Hati
