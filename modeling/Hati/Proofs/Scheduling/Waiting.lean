import Hati.Proofs.Scheduling.Interleaving

namespace Hati

/-!
# Waiting is one of the interleavings

When no job is queued, the scheduler lets the time move on from one timer to the next until
one of them queues its job.  Each timer that wakes takes the steps of its thread one after
the other, so that what is shown about all interleavings holds for waiting as well.
-/

namespace Scheduler

variable {α : Type}

/-! ## Waking a timer -/

/-- Waking a timer is a few steps of its thread without interference. -/
theorem wake_eq (scheduler : Scheduler α) (timer : Timer) :
    scheduler.wake timer =
      match timer.cancelledAt, timer.period with
      | some _, _ => (scheduler.advance (timer.wakesAt scheduler.slice)).retire timer.id
      | none, none =>
        ((scheduler.advance (timer.wakesAt scheduler.slice)).fire timer).retire timer.id
      | none, some _ => (scheduler.advance (timer.wakesAt scheduler.slice)).fire timer := by
  unfold wake fire
  cases timer.cancelledAt with
  | some moment => rfl
  | none => cases timer.period <;> rfl

/-- A timer that wakes queues its job or is no longer live. -/
theorem wake_progress {scheduler : Scheduler α} {timer : Timer}
    (live : timer ∈ scheduler.timers) :
    (scheduler.wake timer).queue ≠ [] ∨
      (scheduler.wake timer).timers.length < scheduler.timers.length := by
  rw [wake_eq]
  cases timer.cancelledAt with
  | some moment =>
      refine .inr (List.length_filter_lt_length_iff_exists.mpr ⟨timer, live, ?_⟩)
      simp
  | none =>
      left
      cases timer.period with
      | none =>
          show ((scheduler.advance _).fire timer).queue ≠ []
          simp [queue_fire]
      | some period => simp [queue_fire]

/-- A search that keeps what it has or changes to the next timer ends with one of them. -/
theorem foldl_mem {choose : Option Timer → Timer → Option Timer}
    (chooses : ∀ best timer, choose (some best) timer = some best ∨
      choose (some best) timer = some timer) (timers : List Timer) :
    ∀ best, ∃ timer ∈ best :: timers, timers.foldl choose (some best) = some timer := by
  induction timers with
  | nil => exact fun best => ⟨best, List.mem_cons_self, rfl⟩
  | cons timer timers ih =>
      intro best
      rw [List.foldl_cons]
      rcases chooses best timer with kept | changed
      · rw [kept]
        rcases ih best with ⟨chosen, member, found⟩
        refine ⟨chosen, ?_, found⟩
        rcases List.mem_cons.mp member with same | later
        · exact List.mem_cons.mpr (.inl same)
        · exact List.mem_cons_of_mem best (List.mem_cons_of_mem timer later)
      · rw [changed]
        rcases ih timer with ⟨chosen, member, found⟩
        exact ⟨chosen, List.mem_cons_of_mem best member, found⟩

theorem earliest?_cases (scheduler : Scheduler α) :
    scheduler.timers = [] ∧ scheduler.earliest? = none ∨
      ∃ timer ∈ scheduler.timers, scheduler.earliest? = some timer := by
  unfold earliest?
  cases scheduler.timers with
  | nil => exact .inl ⟨rfl, rfl⟩
  | cons timer timers =>
      refine .inr (foldl_mem ?_ timers timer)
      intro best other
      dsimp only
      split
      · exact .inr rfl
      · exact .inl rfl

/-! ## Waiting for a job -/

/-- Waiting makes no difference to an answer that can be given at once. -/
theorem next_eq_nextWithin {scheduler : Scheduler α}
    (ready : scheduler.queue ≠ [] ∨ scheduler.timers = []) (rounds : Nat) :
    scheduler.next = nextWithin rounds scheduler := by
  unfold next
  rcases nextWithin_cases ready rounds with ⟨job, queue, queued, answer⟩ | ⟨empty, idle, answer⟩
  · rw [answer, nextWithin_of_queued queued]
  · rw [answer, nextWithin_of_idle empty idle]

namespace Act

/-- The step is one of a timer's thread. -/
def OfThread : Act α → Prop
  | move _ => True
  | fire _ => True
  | _ => False

theorem OfThread.orderly {act : Act α} (own : act.OfThread) (past : List (Act α))
    (now : Snapshot α) : Orderly past now act := by
  cases act with
  | move id => trivial
  | fire id => trivial
  | _ => exact False.elim own

end Act

/-- A run goes on by steps of the threads alone, until no thread is between two of
its steps. -/
structure Continues (sliceMillis : Nat) (past : List (Act α)) (now : Snapshot α)
    (moves : List (Act α)) (later : Snapshot α) : Prop where
  run : Runs Orderly sliceMillis (past ++ moves) later
  threads : ∀ act ∈ moves, act.OfThread
  held : later.held = now.held
  rests : later.Rests

theorem Continues.refl {sliceMillis : Nat} {past : List (Act α)} {now : Snapshot α}
    (run : Runs Orderly sliceMillis past now) (rests : now.Rests) :
    Continues sliceMillis past now [] now :=
  ⟨(List.append_nil past).symm ▸ run, fun _ member => absurd member List.not_mem_nil, rfl, rests⟩

theorem Continues.trans {sliceMillis : Nat} {past first second : List (Act α)}
    {now middle later : Snapshot α} (earlier : Continues sliceMillis past now first middle)
    (rest : Continues sliceMillis (past ++ first) middle second later) :
    Continues sliceMillis past now (first ++ second) later where
  run := List.append_assoc past first second ▸ rest.run
  threads act member := by
    rcases List.mem_append.mp member with inFirst | inSecond
    · exact earlier.threads act inFirst
    · exact rest.threads act inSecond
  held := rest.held.trans earlier.held
  rests := rest.rests

namespace Runs

variable {sliceMillis : Nat} {past : List (Act α)} {now : Snapshot α}

theorem thread {act : Act α} {later : Snapshot α} (run : Runs Orderly sliceMillis past now)
    (step : Step now act later) (own : act.OfThread) :
    Runs Orderly sliceMillis (past ++ [act]) later :=
  run.step step (own.orderly past now)

/-- Waking a timer is one of the interleavings. -/
theorem wake (run : Runs Orderly sliceMillis past now) (rests : now.Rests) {timer : Timer}
    (live : timer ∈ now.scheduler.timers) :
    ∃ moves later, Continues sliceMillis past now moves later ∧
      later.scheduler = now.scheduler.wake timer := by
  let moment := timer.wakesAt now.scheduler.slice
  have waits := rests timer live
  cases cancelled : timer.cancelledAt with
  | some noticed =>
      have unwanted : timer.cancelledAt ≠ none := by simp [cancelled]
      have givenUp := run.thread (.giveUp now timer moment live waits unwanted) trivial
      have retired := givenUp.thread (.retire _ timer live (if_pos rfl)) trivial
      rw [List.append_assoc] at retired
      refine ⟨_, _, ⟨retired, ?_, rfl, ?_⟩, ?_⟩
      · simp [Act.OfThread]
      · intro other member
        rcases List.mem_filter.mp member with ⟨still, different⟩
        have apart : other.id ≠ timer.id := by simpa using different
        simpa [apart] using rests other still
      · rw [wake_eq, cancelled]
        rfl
  | none =>
      have due := run.thread (.fallDue now timer moment live waits cancelled) trivial
      have fired := due.thread (.fire _ timer live (if_pos rfl)) trivial
      cases period : timer.period with
      | some length =>
          rw [List.append_assoc] at fired
          refine ⟨_, _, ⟨fired, ?_, rfl, ?_⟩, ?_⟩
          · simp [Act.OfThread]
          · intro other member
            by_cases same : other.id = timer.id
            · simp [same, period]
            · rcases mem_timers_fire member with still | ⟨impossible, -⟩
              · simpa [same] using rests other still
              · exact absurd impossible same
          · rw [wake_eq, cancelled, period]
            rfl
      | none =>
          have still : timer ∈ ((now.scheduler.advance moment).fire timer).timers := by
            rw [Scheduler.fire, period]
            exact live
          have leaves := fired.thread (.retire _ timer still (by simp [period])) trivial
          rw [List.append_assoc, List.append_assoc] at leaves
          refine ⟨_, _, ⟨leaves, ?_, rfl, ?_⟩, ?_⟩
          · simp [Act.OfThread]
          · intro other member
            rcases List.mem_filter.mp member with ⟨kept, different⟩
            have apart : other.id ≠ timer.id := by simpa using different
            rcases mem_timers_fire kept with old | ⟨impossible, -⟩
            · simpa [apart] using rests other old
            · exact absurd impossible apart
          · rw [wake_eq, cancelled, period]
            rfl

end Runs

theorem nextWithin_succ {scheduler : Scheduler α} {timer : Timer} (empty : scheduler.queue = [])
    (first : scheduler.earliest? = some timer) (rounds : Nat) :
    nextWithin (rounds + 1) scheduler = nextWithin rounds (scheduler.wake timer) := by
  rw [nextWithin.eq_def]
  simp only [empty, first]

namespace Runs

variable {sliceMillis : Nat}

/-- With a round for every live timer, the threads move on until the answer can be
given at once. -/
theorem nextWithin (rounds : Nat) : ∀ {past : List (Act α)} {now : Snapshot α},
    Runs Orderly sliceMillis past now → now.Rests →
    (now.scheduler.queue ≠ [] ∨ now.scheduler.timers.length < rounds) →
    ∃ moves later, Continues sliceMillis past now moves later ∧
      (later.scheduler.queue ≠ [] ∨ later.scheduler.timers = []) ∧
      later.scheduler.next = Scheduler.nextWithin rounds now.scheduler := by
  induction rounds with
  | zero =>
      intro past now run rests enough
      have ready : now.scheduler.queue ≠ [] ∨ now.scheduler.timers = [] :=
        enough.imp_right fun impossible => absurd impossible (Nat.not_lt_zero _)
      exact ⟨[], now, .refl run rests, ready, next_eq_nextWithin ready 0⟩
  | succ rounds ih =>
      intro past now run rests enough
      by_cases ready : now.scheduler.queue ≠ [] ∨ now.scheduler.timers = []
      · exact ⟨[], now, .refl run rests, ready, next_eq_nextWithin ready _⟩
      · have empty : now.scheduler.queue = [] :=
          Decidable.of_not_not fun waiting => ready (.inl waiting)
        rcases now.scheduler.earliest?_cases with ⟨idle, -⟩ | ⟨timer, live, first⟩
        · exact absurd (.inr idle) ready
        · rcases run.wake rests live with ⟨moves, middle, continues, woken⟩
          have fewer : now.scheduler.timers.length < rounds + 1 :=
            enough.resolve_left fun waiting => waiting empty
          have progress : middle.scheduler.queue ≠ [] ∨
              middle.scheduler.timers.length < rounds := by
            rw [woken]
            exact (wake_progress live).imp_right fun shorter => by omega
          rcases ih continues.run continues.rests progress with ⟨rest, later, goesOn, ready, answer⟩
          refine ⟨moves ++ rest, later, continues.trans goesOn, ready, ?_⟩
          rw [answer, woken, nextWithin_succ empty first]

/-- Waiting for the next job is one of the interleavings. -/
theorem next {past : List (Act α)} {now : Snapshot α} (run : Runs Orderly sliceMillis past now)
    (rests : now.Rests) (idle : now.held = none) :
    ∃ moves later, (∀ act ∈ moves, act.OfThread) ∧
      Runs Orderly sliceMillis (past ++ moves ++ [.next now.scheduler.next.1]) later ∧
      later.scheduler = now.scheduler.next.2 ∧ later.held = now.scheduler.next.1 ∧
      later.Rests := by
  have enough : now.scheduler.timers.length < now.scheduler.timers.length + 1 := Nat.lt_succ_self _
  rcases run.nextWithin _ rests (.inr enough) with ⟨moves, later, continues, ready, answer⟩
  have same : later.scheduler.next = now.scheduler.next := answer
  have answered := continues.run.step (.next later ready) (continues.held.trans idle)
  rw [same] at answered
  refine ⟨moves, _, continues.threads, answered, rfl, rfl, ?_⟩
  have live : now.scheduler.next.2.timers = later.scheduler.timers := by
    rcases next_frame ready with ⟨queue, given⟩
    rw [← same, given]
  intro timer member
  exact continues.rests timer (live ▸ member)

end Runs

end Scheduler

end Hati
