import Hati.Proofs.Scheduling.DueTimes
import Hati.Proofs.Scheduling.Waiting

namespace Hati

/-!
# Timers keep their times

Against the clock, a timer comes to its deadline exactly when it should: one delay after it was
armed, and then again after each period, until it is cancelled.  A thread that has come to its
deadline queues the job in that very moment.  Since the log is in the order of time, the jobs
are queued, and so returned, in the order in which the timers became due.

Nothing decides between a deadline and a cancellation in one and the same moment; whichever
comes first in the log counts.
-/

namespace Scheduler

variable {α : Type}

namespace TimedRun

variable {sliceMillis : Nat} {log : Log} {now : Snapshot α}

/-- A timer that wakes has not been cancelled before. -/
theorem uncancelled_of_woke {before after : Snapshot α} {happenings : List Happening} {id : Nat}
    (run : TimedRun sliceMillis log before) (tick : Tick before happenings after)
    (woke : .woke id ∈ happenings) (moment : Nat) : (moment, .cancelled id) ∉ log := by
  cases tick with
  | fallDue timer live waits wanted reached =>
      cases List.mem_singleton.mp woke
      rcases run.armed timer live with ⟨armed, delay, repeats, listed⟩
      rcases run.standing listed with ⟨count, standing⟩
      exact (standing.fallDue live waits wanted reached).1 moment
  | cancel other =>
      split at woke
      · cases List.mem_singleton.mp woke
      · cases woke
  | next ready =>
      rcases List.mem_map.mp woke with ⟨job, -, impossible⟩
      cases impossible
  | _ =>
      first
      | cases List.mem_singleton.mp woke
      | cases woke

/-- No timer wakes after it was cancelled. -/
theorem silenced (run : TimedRun sliceMillis log now) :
    log.Pairwise fun first second => ∀ id, first.2 = .cancelled id → second.2 ≠ .woke id := by
  induction run with
  | start => exact .nil
  | @tick log before after happenings run tick ih =>
      refine List.pairwise_append.mpr ⟨ih, ?_, ?_⟩
      · have single := tick.length_le
        match happenings, single with
        | [], _ => exact .nil
        | [happening], _ => exact List.pairwise_singleton _ _
      · intro first member second new id cancelled woke
        rcases first with ⟨moment, happening⟩
        rcases List.mem_map.mp new with ⟨other, happens, rfl⟩
        cases cancelled
        cases woke
        exact run.uncancelled_of_woke tick happens moment member

end TimedRun

/-! ## What the log says -/

/-- What the log says of a timer that was armed at a moment with a delay. -/
structure KeepsTime (log : Log) (now : Snapshot α) (id armed delay : Nat) (repeats : Bool)
    (count : Nat) : Prop where
  /-- It has woken at the first moments at which it was due, once at each. -/
  woke : log.moments (.woke id) = dueTimes armed delay count
  once : repeats = false → count ≤ 1
  /-- Each time it queued its job in the same moment, or it is just about to. -/
  queued : log.moments (.queued (.timerFired id)) = dueTimes armed delay count ∨
    now.phase id = .due ∧
      log.moments (.queued (.timerFired id)) ++ [now.scheduler.now] = dueTimes armed delay count
  /-- If it had to wake once more before now, it was cancelled by then. -/
  complete : repeats = true ∨ count = 0 → dueTime armed delay count < now.scheduler.now →
    ∃ moment ≤ dueTime armed delay count, (moment, .cancelled id) ∈ log

/-- What the log of a run against the clock says of timers and jobs. -/
structure Punctual (log : Log) (now : Snapshot α) : Prop where
  timers : ∀ {id armed delay repeats}, (armed, .armed id delay repeats) ∈ log →
    ∃ count, KeepsTime log now id armed delay repeats count
  /-- A timer that was cancelled does not wake any more. -/
  silenced : log.Pairwise fun first second => ∀ id, first.2 = .cancelled id → second.2 ≠ .woke id
  /-- All jobs of timers belong to timers that were armed. -/
  origin : ∀ {moment id}, (moment, .queued (.timerFired id)) ∈ log →
    ∃ armed delay repeats, (armed, .armed id delay repeats) ∈ log
  /-- Jobs are queued in the order of time. -/
  ordered : log.queuings.Pairwise fun first second => first.1 ≤ second.1
  /-- Jobs are returned in the order in which they were queued. -/
  returned : log.returns ++ now.scheduler.queue = log.queuings.map Prod.snd
  /-- What is queued at some point is returned before all that is queued later. -/
  first : ∀ {earlier later}, log = earlier ++ later →
    ∃ waiting, earlier.returns ++ waiting = earlier.queuings.map Prod.snd ∧
      later.returns ++ now.scheduler.queue = waiting ++ later.queuings.map Prod.snd

theorem Standing.keepsTime {log : Log} {now : Snapshot α} {id armed delay count : Nat}
    {repeats : Bool} (standing : Standing log now id armed delay repeats count) :
    ∃ woken, KeepsTime log now id armed delay repeats woken := by
  have bounded (remains : repeats = true ∨ count = 0) (single : repeats = false) : count = 0 :=
    remains.resolve_left fun again => nomatch again.symm.trans single
  cases standing with
  | pending waits live set ahead wanted remains wakings firings =>
      refine ⟨count, wakings, fun single => ?_, .inl firings, fun _ late => ?_⟩
      · exact bounded remains single ▸ Nat.zero_le 1
      · exact absurd ahead (Nat.not_le_of_lt late)
  | due due live set reached remains wakings firings =>
      refine ⟨count + 1, wakings, fun single => ?_, .inr ⟨due, ?_⟩, fun _ late => ?_⟩
      · exact bounded remains single ▸ Nat.le_refl 1
      · rw [firings, reached, dueTimes_succ]
      · have past := dueTime_le_succ armed delay count
        omega
  | finished quiet unwanted why once wakings firings =>
      refine ⟨count, wakings, once, .inl firings, fun remains _ => ?_⟩
      rcases why with ⟨single, last⟩ | cancelled
      · rw [bounded remains single] at last
        cases last
      · exact cancelled

namespace TimedRun

variable {sliceMillis : Nat} {log : Log} {now : Snapshot α}

theorem punctual (run : TimedRun sliceMillis log now) : Punctual log now where
  timers listed := by
    rcases run.standing listed with ⟨count, standing⟩
    exact standing.keepsTime
  silenced := run.silenced
  origin := run.queued_armed
  ordered := by
    refine List.Pairwise.filterMap _ ?_ run.chronological
    intro first second early entry gives other givesOther
    rcases Option.map_eq_some_iff.mp gives with ⟨job, -, rfl⟩
    rcases Option.map_eq_some_iff.mp givesOther with ⟨later, -, rfl⟩
    exact early
  returned := run.returned_queue
  first := run.returned_first

end TimedRun

/-! ## Waiting against the clock -/

/-- A search that keeps the smaller of two ends with the smallest. -/
theorem foldl_le (measure : Timer → Nat) {choose : Option Timer → Timer → Option Timer}
    (chooses : ∀ best timer, ∃ kept, choose (some best) timer = some kept ∧
      measure kept ≤ measure best ∧ measure kept ≤ measure timer) (timers : List Timer) :
    ∀ best chosen, timers.foldl choose (some best) = some chosen →
      measure chosen ≤ measure best ∧ ∀ timer ∈ timers, measure chosen ≤ measure timer := by
  induction timers with
  | nil =>
      rintro best chosen ⟨⟩
      exact ⟨Nat.le_refl _, fun _ member => absurd member List.not_mem_nil⟩
  | cons timer timers ih =>
      intro best chosen found
      rcases chooses best timer with ⟨kept, choice, below, belowNext⟩
      rw [List.foldl_cons, choice] at found
      rcases ih kept chosen found with ⟨least, others⟩
      refine ⟨Nat.le_trans least below, fun other member => ?_⟩
      rcases List.mem_cons.mp member with rfl | later
      · exact Nat.le_trans least belowNext
      · exact others other later

/-- No timer wakes before the earliest one. -/
theorem wakesAt_le_of_earliest? {scheduler : Scheduler α} {timer : Timer}
    (first : scheduler.earliest? = some timer) :
    ∀ other ∈ scheduler.timers, timer.wakesAt scheduler.slice ≤ other.wakesAt scheduler.slice := by
  unfold earliest? at first
  cases timers : scheduler.timers with
  | nil => exact fun _ member => absurd member List.not_mem_nil
  | cons head rest =>
      rw [timers, List.foldl_cons] at first
      have least := foldl_le (fun timer => timer.wakesAt scheduler.slice) ?_ rest head timer first
      · intro other member
        rcases List.mem_cons.mp member with rfl | later
        · exact least.1
        · exact least.2 other later
      · intro best other
        dsimp only
        split
        · rename_i sooner
          exact ⟨other, rfl, Nat.le_of_lt sooner, Nat.le_refl _⟩
        · rename_i later
          exact ⟨best, rfl, Nat.le_refl _, Nat.le_of_not_lt later⟩

/-- A run goes on against the clock without an answer to the event loop, until no thread is
between two of its steps. -/
structure RunsOn (sliceMillis : Nat) (log : Log) (now : Snapshot α) (more : Log)
    (later : Snapshot α) : Prop where
  run : TimedRun sliceMillis (log ++ more) later
  unanswered : more.returns = []
  rests : later.Rests

/-- Only the thread of one timer has moved, and the timer waits or is gone. -/
theorem Snapshot.Rests.of_others {before after : Snapshot α} (rests : before.Rests) (id : Nat)
    (phase : ∀ other, other ≠ id → after.phase other = before.phase other)
    (others : ∀ timer ∈ after.scheduler.timers, timer.id ≠ id → timer ∈ before.scheduler.timers)
    (own : ∀ timer ∈ after.scheduler.timers, timer.id = id → after.phase id = .waiting) :
    after.Rests := by
  intro timer member
  by_cases same : timer.id = id
  · rw [same]
    exact own timer member same
  · rw [phase timer.id same]
    exact rests timer (others timer member same)

namespace TimedRun

variable {sliceMillis : Nat} {log : Log} {now : Snapshot α}

/-- The clock may be set to the moment at which the earliest timer wakes. -/
theorem mayPass (run : TimedRun sliceMillis log now) (rests : now.Rests) {timer : Timer}
    (first : now.scheduler.earliest? = some timer) :
    now.MayPass (max now.scheduler.now (timer.wakesAt now.scheduler.slice)) := by
  refine ⟨Nat.le_max_left _ _, fun other live => ⟨?_, fun waits wanted => ?_⟩⟩
  · rw [rests other live]
    exact Phase.noConfusion
  · have sooner := wakesAt_le_of_earliest? first other live
    have wakes : other.wakesAt now.scheduler.slice = other.deadline := by
      rw [Timer.wakesAt, wanted]
    exact Nat.max_le.mpr ⟨run.ahead live waits wanted, wakes ▸ sooner⟩

/-- Waking the earliest timer keeps to the clock. -/
theorem wake (run : TimedRun sliceMillis log now) (rests : now.Rests) {timer : Timer}
    (live : timer ∈ now.scheduler.timers) (first : now.scheduler.earliest? = some timer) :
    ∃ more later, RunsOn sliceMillis log now more later ∧
      later.scheduler = now.scheduler.wake timer := by
  have waits := rests timer live
  have passed := run.tick (.pass now _ (run.mayPass rests first))
  rw [Log.record_nil] at passed
  have clock : now.scheduler.advance (max now.scheduler.now (timer.wakesAt now.scheduler.slice)) =
      now.scheduler.advance (timer.wakesAt now.scheduler.slice) := by
    simp only [advance, Nat.max_eq_right (Nat.le_max_left _ _)]
  rw [clock] at passed
  cases marked : timer.cancelledAt with
  | some stamp =>
      have unwanted : timer.cancelledAt ≠ none := by simp [marked]
      have givenUp := passed.tick (.giveUp _ timer live waits unwanted)
      have retired := givenUp.tick (.retire _ timer live (if_pos rfl))
      rw [Log.record_nil, Log.record_nil] at retired
      refine ⟨[], _, ⟨(List.append_nil log).symm ▸ retired, rfl, ?_⟩, ?_⟩
      · refine rests.of_others timer.id (fun other apart => if_neg apart) ?_ ?_
        · exact fun other member _ => (List.mem_filter.mp member).1
        · intro other member same
          simpa [same] using (List.mem_filter.mp member).2
      · rw [wake_eq, marked]
        rfl
  | none =>
      have reached : timer.deadline =
          (now.scheduler.advance (timer.wakesAt now.scheduler.slice)).now := by
        have wakes : timer.wakesAt now.scheduler.slice = timer.deadline := by
          rw [Timer.wakesAt, marked]
        rw [wakes]
        exact (Nat.max_eq_right (run.ahead live waits marked)).symm
      have due := passed.tick (.fallDue _ timer live waits marked reached)
      have fired := due.tick (.fire _ timer live (if_pos rfl))
      cases period : timer.period with
      | some length =>
          rw [Log.record, Log.record, List.append_assoc] at fired
          refine ⟨_, _, ⟨fired, rfl, ?_⟩, ?_⟩
          · refine rests.of_others timer.id (fun other apart => ?_) ?_ ?_
            · simp [apart]
            · intro other member apart
              have old := (mem_timers_fire_iff_of_ne apart).mp member
              exact old
            · intro other member same
              simp [period]
          · rw [wake_eq, marked, period]
            rfl
      | none =>
          have leaves := fired.tick (.retire _ timer ?_ (by simp [period]))
          · rw [Log.record_nil, Log.record, Log.record, List.append_assoc] at leaves
            refine ⟨_, _, ⟨leaves, rfl, ?_⟩, ?_⟩
            · refine rests.of_others timer.id (fun other apart => ?_) ?_ ?_
              · simp [apart]
              · intro other member apart
                have old := (mem_timers_fire_iff_of_ne apart).mp (List.mem_filter.mp member).1
                exact old
              · intro other member same
                simpa [same] using (List.mem_filter.mp member).2
            · rw [wake_eq, marked, period]
              rfl
          · rw [Snapshot.scheduler_fired, timers_fire_of_once period]
            exact live

/-- With a round for every live timer, the clock moves on until the answer can be given. -/
theorem nextWithin (rounds : Nat) : ∀ {log : Log} {now : Snapshot α},
    TimedRun sliceMillis log now → now.Rests →
    (now.scheduler.queue ≠ [] ∨ now.scheduler.timers.length < rounds) →
    ∃ more later, RunsOn sliceMillis log now more later ∧
      (later.scheduler.queue ≠ [] ∨ later.scheduler.timers = []) ∧
      later.scheduler.next = Scheduler.nextWithin rounds now.scheduler := by
  have still {log : Log} {now : Snapshot α} (run : TimedRun sliceMillis log now)
      (rests : now.Rests) : RunsOn sliceMillis log now [] now :=
    ⟨(List.append_nil log).symm ▸ run, rfl, rests⟩
  induction rounds with
  | zero =>
      intro log now run rests enough
      have ready : now.scheduler.queue ≠ [] ∨ now.scheduler.timers = [] :=
        enough.imp_right fun impossible => absurd impossible (Nat.not_lt_zero _)
      exact ⟨[], now, still run rests, ready, next_eq_nextWithin ready 0⟩
  | succ rounds ih =>
      intro log now run rests enough
      by_cases ready : now.scheduler.queue ≠ [] ∨ now.scheduler.timers = []
      · exact ⟨[], now, still run rests, ready, next_eq_nextWithin ready _⟩
      · have empty : now.scheduler.queue = [] :=
          Decidable.of_not_not fun waiting => ready (.inl waiting)
        rcases now.scheduler.earliest?_cases with ⟨idle, -⟩ | ⟨timer, live, first⟩
        · exact absurd (.inr idle) ready
        · rcases run.wake rests live first with ⟨more, middle, waits, woken⟩
          have fewer : now.scheduler.timers.length < rounds + 1 :=
            enough.resolve_left fun waiting => waiting empty
          have progress : middle.scheduler.queue ≠ [] ∨
              middle.scheduler.timers.length < rounds := by
            rw [woken]
            exact (wake_progress live).imp_right fun shorter => by omega
          rcases ih waits.run waits.rests progress with ⟨rest, later, goesOn, ready, answer⟩
          refine ⟨more ++ rest, later, ⟨?_, ?_, goesOn.rests⟩, ready, ?_⟩
          · exact List.append_assoc log more rest ▸ goesOn.run
          · rw [Log.returns_append, waits.unanswered, goesOn.unanswered]
            rfl
          · rw [answer, woken, nextWithin_succ empty first]

/-- Asking for the next job, and waiting for it if need be, keeps to the clock. -/
theorem next (run : TimedRun sliceMillis log now) (rests : now.Rests) :
    ∃ more later, TimedRun sliceMillis (log ++ more) later ∧
      more.returns = now.scheduler.next.1.toList ∧ later.scheduler = now.scheduler.next.2 ∧
      later.held = now.scheduler.next.1 ∧ later.Rests := by
  have enough : now.scheduler.timers.length < now.scheduler.timers.length + 1 := Nat.lt_succ_self _
  rcases run.nextWithin _ rests (.inr enough) with ⟨more, later, waits, ready, answer⟩
  have same : later.scheduler.next = now.scheduler.next := answer
  have answered := waits.run.tick (.next later ready)
  rw [same, Log.record, List.append_assoc] at answered
  refine ⟨_, _, answered, ?_, rfl, rfl, ?_⟩
  · rw [Log.returns_append, waits.unanswered]
    cases now.scheduler.next.1 <;> rfl
  · have live : now.scheduler.next.2.timers = later.scheduler.timers := by
      rcases next_frame ready with ⟨queue, given⟩
      rw [← same, given]
    intro timer member
    exact waits.rests timer (live ▸ member)

/-- Against the clock, every timer wakes and queues its job at the moments at which it is due, as
long as it is not cancelled, and at no others; jobs are queued in the order of time and returned in
the order in which they were queued.  The scheduler itself runs against the clock: when it is asked
for the next job, it only lets the time pass and the timers wake as they must. -/
theorem keeps_time (run : TimedRun sliceMillis log now) :
    Punctual log now ∧
    (now.Rests → ∃ more later, TimedRun sliceMillis (log ++ more) later ∧
      more.returns = now.scheduler.next.1.toList ∧ later.scheduler = now.scheduler.next.2 ∧
      later.held = now.scheduler.next.1 ∧ later.Rests) :=
  ⟨run.punctual, run.next⟩

/-- An interval of half a millisecond fires after that time and then after a whole millisecond; a
timer that falls due after it follows it, and once it is cancelled it is silent. -/
theorem keeps_time_interval : ∃ (log : Log) (now : Snapshot Nat), TimedRun 5 log now ∧
    log.queuings = [(500000, .timerFired 1), (1500000, .timerFired 1), (1600000, .timerFired 2)] ∧
    (∃ count, KeepsTime log now 1 0 500000 true count) ∧ now.scheduler.now = 9000000 := by
  have fresh : TimedRun 5 [] { scheduler := (new 5 : Scheduler Nat) } := .start
  have interval := fresh.tick (.arm _ 500000 ⟨7, []⟩ true)
  have single := interval.tick (.arm _ 1600000 ⟨8, []⟩ false)
  have first := single.tick (.pass _ 500000 (by unfold Snapshot.MayPass; decide))
  have due := first.tick (.fallDue _ _ List.mem_cons_self rfl rfl rfl)
  have fired := due.tick (.fire _ _ List.mem_cons_self rfl)
  have second := fired.tick (.pass _ 1500000 (by unfold Snapshot.MayPass; decide))
  have dueAgain := second.tick (.fallDue _ _ List.mem_cons_self rfl rfl rfl)
  have firedAgain := dueAgain.tick (.fire _ _ List.mem_cons_self rfl)
  have cancelled := firedAgain.tick (.cancel _ 1)
  have third := cancelled.tick (.pass _ 1600000 (by unfold Snapshot.MayPass; decide))
  have other := third.tick
    (.fallDue _ _ (List.mem_cons_of_mem _ List.mem_cons_self) rfl rfl rfl)
  have firedOther := other.tick (.fire _ _ (List.mem_cons_of_mem _ List.mem_cons_self) rfl)
  have later := firedOther.tick (.pass _ 9000000 (by unfold Snapshot.MayPass; decide))
  exact ⟨_, _, later, by decide, later.keeps_time.1.timers (by decide), by decide⟩

end TimedRun

end Scheduler

end Hati
