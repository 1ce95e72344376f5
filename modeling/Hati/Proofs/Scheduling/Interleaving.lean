import Hati.Scheduler

namespace Hati

/-!
# Timers and the event loop as interleaved parties

Each timer has a thread of its own, and the threads share the queue and the table
of live timers with the event loop.  The steps below are what one party does
between two moments at which another one can interfere.  Time passes as it
likes, so that the steps of different parties may follow one another in any order.

A thread looks at the cancellation of its timer for the last time before it
queues its job, and it leaves the table of live timers only after that.  Both gaps
are visible: a cancelled timer may still queue a job, and a job may be removed from
the queue while the timer that queued it is still live.
-/

namespace Job

/-- The number of the callback that a job names. -/
def number : Job → Nat
  | immediate id => id
  | timerFired id => id

end Job

namespace Scheduler

variable {α : Type}

/-- Where the thread of a timer stands. -/
inductive Phase where
  /-- Asleep until the deadline, or until it sees that the timer was cancelled. -/
  | waiting
  /-- About to queue the job, whatever happens to the timer. -/
  | due
  /-- About to take the timer out of the live ones. -/
  | leaving
deriving DecidableEq, Repr

/-- The scheduler, with what the threads and the event loop know by themselves. -/
structure Snapshot (α : Type) where
  scheduler : Scheduler α
  /-- Where the threads stand, by the numbers of their timers. -/
  phase : Nat → Phase := fun _ => .waiting
  /-- The job that the event loop has removed from the queue and not yet resolved. -/
  held : Option Job := none

/-- What a step does, as far as the other parties can tell. -/
inductive Act (α : Type) where
  | enqueue (id : Nat) (task : Task α)
  | arm (id : Nat) (task : Task α) (repeats : Bool)
  /-- A timer is refused its thread. -/
  | refuse (id : Nat)
  | cancel (id : Nat)
  /-- A thread moves on without touching the queue. -/
  | move (id : Nat)
  | fire (id : Nat)
  | next (answer : Option Job)
  | take (job : Job) (answer : Option (Task α))
  | shutdown

/-! ## The steps of a thread -/

/-- Time passes; it never runs backwards. -/
def advance (scheduler : Scheduler α) (moment : Nat) : Scheduler α :=
  { scheduler with now := max scheduler.now moment }

/-- Queue the job of a timer, which waits again if it repeats. -/
def fire (scheduler : Scheduler α) (timer : Timer) : Scheduler α :=
  let fired := { scheduler with queue := scheduler.queue ++ [.timerFired timer.id] }
  match timer.period with
  | none => fired
  | some period =>
    let again := { timer with since := scheduler.now, deadline := scheduler.now + period }
    { fired with
      timers := scheduler.timers.map fun other => if other.id == timer.id then again else other }

/-- Take a timer out of the live ones. -/
def retire (scheduler : Scheduler α) (id : Nat) : Scheduler α :=
  { scheduler with timers := scheduler.timers.filter fun other => other.id != id }

namespace Snapshot

/-- The thread of a timer comes to stand somewhere else. -/
def enter (now : Snapshot α) (id : Nat) (phase : Phase) : Snapshot α :=
  { now with phase := fun other => if other = id then phase else now.phase other }

@[simp]
theorem scheduler_enter (now : Snapshot α) (id : Nat) (phase : Phase) :
    (now.enter id phase).scheduler = now.scheduler := rfl

@[simp]
theorem held_enter (now : Snapshot α) (id : Nat) (phase : Phase) :
    (now.enter id phase).held = now.held := rfl

@[simp]
theorem phase_enter (now : Snapshot α) (id : Nat) (phase : Phase) (other : Nat) :
    (now.enter id phase).phase other = if other = id then phase else now.phase other := rfl

/-- The jobs that were queued and are not resolved yet. -/
def pending (now : Snapshot α) : List Job :=
  now.held.toList ++ now.scheduler.queue

/-- No thread is between two of its steps. -/
def Rests (now : Snapshot α) : Prop :=
  ∀ timer ∈ now.scheduler.timers, now.phase timer.id = .waiting

end Snapshot

/-- One step of one party. -/
inductive Step : Snapshot α → Act α → Snapshot α → Prop where
  | enqueue (now : Snapshot α) (task : Task α) :
    Step now (.enqueue (now.scheduler.enqueue task).1 task)
      { now with scheduler := (now.scheduler.enqueue task).2 }
  | arm (now : Snapshot α) (delay : Nat) (task : Task α) (repeats : Bool) :
    Step now (.arm (now.scheduler.arm delay task repeats).1 task repeats)
      (Snapshot.enter { now with scheduler := (now.scheduler.arm delay task repeats).2 }
        (now.scheduler.arm delay task repeats).1 .waiting)
  | refuse (now : Snapshot α) :
    Step now (.refuse now.scheduler.nextId) { now with scheduler := now.scheduler.refuse }
  | cancel (now : Snapshot α) (id : Nat) :
    Step now (.cancel id) { now with scheduler := (now.scheduler.cancel id).2 }
  /-- The deadline has passed, and the timer is still wanted. -/
  | fallDue (now : Snapshot α) (timer : Timer) (moment : Nat)
    (live : timer ∈ now.scheduler.timers) (waits : now.phase timer.id = .waiting)
    (wanted : timer.cancelledAt = none) :
    Step now (.move timer.id)
      (Snapshot.enter { now with scheduler := now.scheduler.advance moment } timer.id .due)
  /-- The thread sees that the timer was cancelled. -/
  | giveUp (now : Snapshot α) (timer : Timer) (moment : Nat)
    (live : timer ∈ now.scheduler.timers) (waits : now.phase timer.id = .waiting)
    (cancelled : timer.cancelledAt ≠ none) :
    Step now (.move timer.id)
      (Snapshot.enter { now with scheduler := now.scheduler.advance moment } timer.id .leaving)
  | fire (now : Snapshot α) (timer : Timer) (live : timer ∈ now.scheduler.timers)
    (due : now.phase timer.id = .due) :
    Step now (.fire timer.id)
      (Snapshot.enter { now with scheduler := now.scheduler.fire timer } timer.id
        (if timer.period.isSome then .waiting else .leaving))
  | retire (now : Snapshot α) (timer : Timer) (live : timer ∈ now.scheduler.timers)
    (leaves : now.phase timer.id = .leaving) :
    Step now (.move timer.id) { now with scheduler := now.scheduler.retire timer.id }
  /-- The event loop asks for a job when it need not wait for the answer. -/
  | next (now : Snapshot α)
    (ready : now.scheduler.queue ≠ [] ∨ now.scheduler.timers = []) :
    Step now (.next now.scheduler.next.1)
      { now with scheduler := now.scheduler.next.2, held := now.scheduler.next.1 }
  | take (now : Snapshot α) (job : Job) :
    Step now (.take job (now.scheduler.take job).1)
      { now with scheduler := (now.scheduler.take job).2, held := none }
  | shutdown (now : Snapshot α) :
    Step now .shutdown { now with scheduler := now.scheduler.shutdown }

/-- Starting a timer is the step that arms it, or the step that refuses it. -/
theorem Step.start (now : Snapshot α) (delay : Nat) (task : Task α) (repeats : Bool) :
    let (answer, scheduler) := now.scheduler.start delay task repeats
    match answer with
    | .ok id => Step now (.arm id task repeats) (Snapshot.enter { now with scheduler } id .waiting)
    | .error _ => Step now (.refuse now.scheduler.nextId) { now with scheduler } := by
  unfold Scheduler.start
  cases now.scheduler.threads now.scheduler.nextId with
  | none => exact .arm now delay task repeats
  | some reason => exact .refuse now

/-- The runs of an empty scheduler in which every step is allowed after those before it. -/
inductive Runs (allowed : List (Act α) → Snapshot α → Act α → Prop) (sliceMillis : Nat) :
    List (Act α) → Snapshot α → Prop where
  | start : Runs allowed sliceMillis [] { scheduler := new sliceMillis }
  | step {past : List (Act α)} {before after : Snapshot α} {act : Act α}
    (run : Runs allowed sliceMillis past before) (step : Step before act after)
    (admitted : allowed past before act) : Runs allowed sliceMillis (past ++ [act]) after

theorem Runs.last {allowed : List (Act α) → Snapshot α → Act α → Prop} {sliceMillis : Nat}
    {past : List (Act α)} {act : Act α} {now : Snapshot α}
    (run : Runs allowed sliceMillis (past ++ [act]) now) :
    ∃ before, Runs allowed sliceMillis past before ∧ Step before act now ∧
      allowed past before act := by
  generalize whole : past ++ [act] = acts at run
  cases run with
  | start => cases past <;> cases whole
  | step run step admitted =>
      rcases List.append_inj' whole rfl with ⟨rfl, same⟩
      cases same
      exact ⟨_, run, step, admitted⟩

/-- The order that the event loop keeps: it resolves each job before it asks for the
next one, only timers are cancelled, and the scheduler is not shut down. -/
def Orderly (past : List (Act α)) (now : Snapshot α) : Act α → Prop
  | .cancel id => ∃ task repeats, .arm id task repeats ∈ past
  | .next _ => now.held = none
  | .take job _ => now.held = some job
  | .shutdown => False
  | _ => True

/-! ## What the operations leave -/

theorem task?_enqueue (scheduler : Scheduler α) (task : Task α) (id : Nat) :
    (scheduler.enqueue task).2.task? id =
      (scheduler.task? id).or (if id = scheduler.nextId then some task else none) := by
  simp only [enqueue, task?, List.lookup_append, List.lookup_cons, List.lookup_nil]
  by_cases same : id = scheduler.nextId
  · simp [same]
  · simp [same, beq_false_of_ne same]

theorem task?_arm (scheduler : Scheduler α) (delay : Nat) (task : Task α) (repeats : Bool)
    (id : Nat) : (scheduler.arm delay task repeats).2.task? id =
      (scheduler.task? id).or (if id = scheduler.nextId then some task else none) :=
  task?_enqueue scheduler task id

theorem task?_dropTask (scheduler : Scheduler α) (id other : Nat) :
    (scheduler.dropTask id).task? other = if other = id then none else scheduler.task? other := by
  simp only [task?, dropTask]
  induction scheduler.tasks with
  | nil => simp
  | cons entry tasks ih =>
      rcases entry with ⟨number, task⟩
      by_cases dropped : number = id
      · subst number
        rw [List.filter_cons_of_neg (by simp), ih, List.lookup_cons]
        by_cases found : other = id
        · rw [if_pos found, if_pos found]
        · rw [if_neg found, if_neg found, beq_false_of_ne found]
      · rw [List.filter_cons_of_pos (by simpa using dropped), List.lookup_cons,
          List.lookup_cons, ih]
        by_cases found : other = number
        · subst other
          simp [dropped]
        · rw [beq_false_of_ne found]

theorem task?_cancel (scheduler : Scheduler α) (id other : Nat) :
    (scheduler.cancel id).2.task? other =
      if other = id then none else scheduler.task? other :=
  task?_dropTask scheduler id other

/-- Queueing the job of a timer touches neither the callbacks nor the numbers. -/
theorem fire_frame (scheduler : Scheduler α) (timer : Timer) :
    ∃ timers, scheduler.fire timer =
      { scheduler with queue := scheduler.queue ++ [.timerFired timer.id], timers } := by
  unfold fire
  cases timer.period with
  | none => exact ⟨scheduler.timers, rfl⟩
  | some period => exact ⟨_, rfl⟩

theorem queue_fire (scheduler : Scheduler α) (timer : Timer) :
    (scheduler.fire timer).queue = scheduler.queue ++ [.timerFired timer.id] := by
  rcases scheduler.fire_frame timer with ⟨timers, fired⟩
  rw [fired]

/-- A callback that is resolved leaves the table, unless it belongs to a live timer
that repeats. -/
theorem take_cases (scheduler : Scheduler α) (job : Job) :
    scheduler.take job = (scheduler.task? job.number, scheduler.dropTask job.number) ∨
      scheduler.take job = (scheduler.task? job.number, scheduler) ∧
        ∃ timer ∈ scheduler.timers, job = .timerFired timer.id ∧ timer.period.isSome = true := by
  cases job with
  | immediate id => exact .inl rfl
  | timerFired id =>
      unfold take
      dsimp only
      split
      · rename_i repeating
        rcases (Option.any_eq_true _ _).mp repeating with ⟨timer, found, repeats⟩
        have named : timer.id = id := by simpa using List.find?_some found
        exact .inr ⟨rfl, timer, List.mem_of_find?_eq_some found, by rw [named], repeats⟩
      · exact .inl rfl

theorem take_fst (scheduler : Scheduler α) (job : Job) :
    (scheduler.take job).1 = scheduler.task? job.number := by
  rcases scheduler.take_cases job with dropped | ⟨kept, -⟩
  · rw [dropped]
  · rw [kept]

/-- Resolving a job touches nothing but the table of callbacks. -/
theorem take_frame (scheduler : Scheduler α) (job : Job) :
    ∃ tasks, (scheduler.take job).2 = { scheduler with tasks } := by
  rcases scheduler.take_cases job with dropped | ⟨kept, -⟩
  · exact ⟨_, congrArg Prod.snd dropped⟩
  · exact ⟨scheduler.tasks, congrArg Prod.snd kept⟩

theorem nextWithin_of_queued {scheduler : Scheduler α} {job : Job} {queue : List Job}
    (queued : scheduler.queue = job :: queue) (rounds : Nat) :
    nextWithin rounds scheduler = (some job, { scheduler with queue }) := by
  unfold nextWithin
  rw [queued]

theorem nextWithin_of_idle {scheduler : Scheduler α} (empty : scheduler.queue = [])
    (idle : scheduler.timers = []) (rounds : Nat) :
    nextWithin rounds scheduler = (none, scheduler) := by
  unfold nextWithin
  simp [empty, idle, earliest?]

/-- Without waiting, the answer is the first job of the queue, or none if there is
neither a job nor a timer. -/
theorem nextWithin_cases {scheduler : Scheduler α}
    (ready : scheduler.queue ≠ [] ∨ scheduler.timers = []) (rounds : Nat) :
    (∃ job queue, scheduler.queue = job :: queue ∧
      nextWithin rounds scheduler = (some job, { scheduler with queue })) ∨
    scheduler.queue = [] ∧ scheduler.timers = [] ∧
      nextWithin rounds scheduler = (none, scheduler) := by
  cases queued : scheduler.queue with
  | cons job queue => exact .inl ⟨job, queue, rfl, nextWithin_of_queued queued rounds⟩
  | nil =>
      have idle : scheduler.timers = [] := ready.resolve_left fun waiting => waiting queued
      exact .inr ⟨rfl, idle, nextWithin_of_idle queued idle rounds⟩

/-- Asking for a job touches nothing but the queue. -/
theorem next_frame {scheduler : Scheduler α}
    (ready : scheduler.queue ≠ [] ∨ scheduler.timers = []) :
    ∃ queue, scheduler.next.2 = { scheduler with queue } := by
  rw [next]
  rcases nextWithin_cases ready (scheduler.timers.length + 1) with
    ⟨job, queue, -, answer⟩ | ⟨-, -, answer⟩
  · exact ⟨queue, congrArg Prod.snd answer⟩
  · exact ⟨scheduler.queue, congrArg Prod.snd answer⟩

/-! ## Numbers -/

namespace Act

/-- The number that a step gives to a new callback. -/
def issued? : Act α → Option Nat
  | enqueue id _ => some id
  | arm id _ _ => some id
  | _ => none

end Act

/-- The numbers given out so far lie below the next one, each above those before it. -/
structure Numbered (past : List (Act α)) (nextId : Nat) : Prop where
  below : ∀ act ∈ past, ∀ id, act.issued? = some id → id < nextId
  increasing : past.Pairwise fun first second => ∀ id, first.issued? = some id →
    ∀ later, second.issued? = some later → id < later

namespace Numbered

variable {past : List (Act α)} {nextId : Nat} {act : Act α}

theorem skip (numbered : Numbered past nextId) (silent : act.issued? = none) :
    Numbered (past ++ [act]) nextId where
  below other member id gives := by
    rcases List.mem_append.mp member with old | new
    · exact numbered.below other old id gives
    · rw [List.mem_singleton.mp new, silent] at gives
      cases gives
  increasing := by
    refine List.pairwise_append.mpr ⟨numbered.increasing, List.pairwise_singleton _ _, ?_⟩
    intro first _ second member id _ later gives
    rw [List.mem_singleton.mp member, silent] at gives
    cases gives

/-- A number may be left out. -/
theorem succ (numbered : Numbered past nextId) : Numbered past (nextId + 1) where
  below act member id gives := Nat.lt_succ_of_lt (numbered.below act member id gives)
  increasing := numbered.increasing

theorem issue (numbered : Numbered past nextId) (gives : act.issued? = some nextId) :
    Numbered (past ++ [act]) (nextId + 1) where
  below other member id givesOther := by
    rcases List.mem_append.mp member with old | new
    · exact Nat.lt_succ_of_lt (numbered.below other old id givesOther)
    · rw [List.mem_singleton.mp new, gives] at givesOther
      exact Option.some.inj givesOther ▸ Nat.lt_succ_self _
  increasing := by
    refine List.pairwise_append.mpr ⟨numbered.increasing, List.pairwise_singleton _ _, ?_⟩
    intro first old second member id givesFirst later givesSecond
    rw [List.mem_singleton.mp member, gives] at givesSecond
    exact Option.some.inj givesSecond ▸ numbered.below first old id givesFirst

/-- No number is given out twice. -/
theorem unique (numbered : Numbered past nextId) {first second : Act α} {id : Nat}
    (memberFirst : first ∈ past) (memberSecond : second ∈ past)
    (givesFirst : first.issued? = some id) (givesSecond : second.issued? = some id) :
    first = second := by
  have every : ∀ first ∈ past, ∀ second ∈ past, first.issued? = some id →
      second.issued? = some id → first = second := by
    apply List.Pairwise.forall_of_forall_of_flip
    · exact fun _ _ _ _ => rfl
    · exact numbered.increasing.imp fun above one two =>
        absurd (above id one id two) (Nat.lt_irrefl id)
    · exact numbered.increasing.imp fun above one two =>
        absurd (above id two id one) (Nat.lt_irrefl id)
  exact every first memberFirst second memberSecond givesFirst givesSecond

end Numbered

theorem Step.numbered {past : List (Act α)} {before after : Snapshot α} {act : Act α}
    (step : Step before act after) (numbered : Numbered past before.scheduler.nextId) :
    Numbered (past ++ [act]) after.scheduler.nextId := by
  cases step with
  | enqueue task => exact numbered.issue rfl
  | arm delay task repeats => exact numbered.issue rfl
  | refuse => exact (numbered.skip rfl).succ
  | cancel id => exact numbered.skip rfl
  | fallDue timer moment => exact numbered.skip rfl
  | giveUp timer moment => exact numbered.skip rfl
  | fire timer =>
      have same : (before.scheduler.fire timer).nextId = before.scheduler.nextId := by
        rcases before.scheduler.fire_frame timer with ⟨timers, fired⟩
        rw [fired]
      exact same.symm ▸ numbered.skip rfl
  | retire timer => exact numbered.skip rfl
  | next ready =>
      have same : before.scheduler.next.2.nextId = before.scheduler.nextId := by
        rcases next_frame ready with ⟨queue, answered⟩
        rw [answered]
      exact same.symm ▸ numbered.skip rfl
  | take job =>
      have same : (before.scheduler.take job).2.nextId = before.scheduler.nextId := by
        rcases before.scheduler.take_frame job with ⟨tasks, taken⟩
        rw [taken]
      exact same.symm ▸ numbered.skip rfl
  | shutdown => exact numbered.skip rfl

theorem Runs.numbered {allowed : List (Act α) → Snapshot α → Act α → Prop} {sliceMillis : Nat}
    {past : List (Act α)} {now : Snapshot α} (run : Runs allowed sliceMillis past now) :
    Numbered past now.scheduler.nextId := by
  induction run with
  | start => exact ⟨fun _ member => absurd member List.not_mem_nil, .nil⟩
  | step _ step _ numbered => exact step.numbered numbered

theorem Runs.issued {allowed : List (Act α) → Snapshot α → Act α → Prop} {sliceMillis : Nat}
    {past : List (Act α)} {now : Snapshot α} (run : Runs allowed sliceMillis past now) {id : Nat}
    {task : Task α} {repeats : Bool} (armed : .arm id task repeats ∈ past) :
    id < now.scheduler.nextId :=
  run.numbered.below _ armed id rfl

/-! ## Callbacks -/

namespace Act

/-- The step may take the callback of this number out of the table. -/
def Withdraws (id : Nat) : Act α → Prop
  | cancel other => other = id
  | take job _ => job.number = id
  | shutdown => True
  | _ => False

end Act

/-- The callback under a number stays as it is, leaves the table, or is put there under
the next number. -/
theorem Step.task?_cases {before after : Snapshot α} {act : Act α}
    (step : Step before act after) (id : Nat) :
    after.scheduler.task? id = before.scheduler.task? id ∨
    after.scheduler.task? id = none ∧ act.Withdraws id ∨
    ∃ task, id = before.scheduler.nextId ∧
      after.scheduler.task? id = (before.scheduler.task? id).or (some task) ∧
      (act = .enqueue id task ∨ ∃ repeats, act = .arm id task repeats) := by
  cases step with
  | enqueue task =>
      by_cases new : id = before.scheduler.nextId
      · refine .inr (.inr ⟨task, new, ?_, .inl (by rw [new]; rfl)⟩)
        rw [task?_enqueue, if_pos new]
      · left
        rw [task?_enqueue, if_neg new, Option.or_none]
  | arm delay task repeats =>
      rw [Snapshot.scheduler_enter]
      by_cases new : id = before.scheduler.nextId
      · refine .inr (.inr ⟨task, new, ?_, .inr ⟨repeats, by rw [new]; rfl⟩⟩)
        rw [task?_arm, if_pos new]
      · left
        rw [task?_arm, if_neg new, Option.or_none]
  | refuse => exact .inl rfl
  | cancel other =>
      rw [task?_cancel]
      by_cases same : id = other
      · exact .inr (.inl ⟨if_pos same, same.symm⟩)
      · exact .inl (if_neg same)
  | fallDue timer moment => exact .inl rfl
  | giveUp timer moment => exact .inl rfl
  | fire timer =>
      rcases before.scheduler.fire_frame timer with ⟨timers, fired⟩
      left
      rw [Snapshot.scheduler_enter, fired]
      rfl
  | retire timer => exact .inl rfl
  | next ready =>
      rcases next_frame ready with ⟨queue, answered⟩
      left
      rw [answered]
      rfl
  | take job =>
      rcases before.scheduler.take_cases job with dropped | ⟨kept, -⟩
      · rw [dropped, task?_dropTask]
        by_cases same : id = job.number
        · exact .inr (.inl ⟨if_pos same, same.symm⟩)
        · exact .inl (if_neg same)
      · rw [kept]
        exact .inl rfl
  | shutdown => exact .inr (.inl ⟨rfl, trivial⟩)

/-- The callback of a number that was given out stays as it is or leaves the table. -/
theorem Step.task?_of_issued {before after : Snapshot α} {act : Act α}
    (step : Step before act after) {id : Nat} (issued : id < before.scheduler.nextId) :
    after.scheduler.task? id = before.scheduler.task? id ∨
      after.scheduler.task? id = none ∧ act.Withdraws id := by
  rcases step.task?_cases id with same | gone | ⟨task, new, -⟩
  · exact .inl same
  · exact .inr gone
  · exact absurd new (Nat.ne_of_lt issued)

/-- A number that has lost its callback does not get another one. -/
theorem Step.task?_none {before after : Snapshot α} {act : Act α}
    (step : Step before act after) {id : Nat} (issued : id < before.scheduler.nextId)
    (absent : before.scheduler.task? id = none) : after.scheduler.task? id = none := by
  rcases step.task?_of_issued issued with same | ⟨gone, -⟩
  · rw [same, absent]
  · exact gone

/-! ## Live timers -/

/-- A timer that fires keeps its number, its period and its cancellation, and the
other timers stay as they are. -/
theorem mem_timers_fire {scheduler : Scheduler α} {timer other : Timer}
    (member : other ∈ (scheduler.fire timer).timers) :
    other ∈ scheduler.timers ∨
      other.id = timer.id ∧ other.period = timer.period ∧
        other.cancelledAt = timer.cancelledAt := by
  unfold fire at member
  cases once : timer.period with
  | none =>
      rw [once] at member
      exact .inl member
  | some period =>
      rw [once] at member
      rcases List.mem_map.mp member with ⟨old, live, becomes⟩
      by_cases same : old.id = timer.id
      · rw [if_pos (beq_iff_eq.mpr same)] at becomes
        subst becomes
        exact .inr ⟨rfl, rfl, rfl⟩
      · rw [if_neg (by simpa using same)] at becomes
        subst becomes
        exact .inl live

theorem mem_timers_fire_of_ne {scheduler : Scheduler α} {timer other : Timer}
    (live : other ∈ scheduler.timers) (apart : other.id ≠ timer.id) :
    other ∈ (scheduler.fire timer).timers := by
  unfold fire
  cases timer.period with
  | none => exact live
  | some period => exact List.mem_map.mpr ⟨other, live, if_neg (by simpa using apart)⟩

end Scheduler

end Hati
