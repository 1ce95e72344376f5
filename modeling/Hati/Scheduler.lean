namespace Hati

/-!
# Queued callbacks and timers

One queue holds the jobs that are ready to run, in the order in which they
became ready.  A job only names a callback by its number; the callbacks wait in
a table of their own, so that one can still be withdrawn after its job was
queued.

Time is simulated: it stands still while jobs run and moves on, to the next
moment at which a timer wakes, when the queue is empty.  A timer wakes at its
deadline and at the end of every slice before it; a cancelled timer is given up
the next time it wakes.  Times are counted in nanoseconds.

Every timer needs a thread of the system, which may refuse it.
-/

/-- A callback with the arguments it will be called with. -/
structure Task (α : Type) where
  callback : α
  arguments : List α
deriving DecidableEq, Repr

inductive Job where
  | immediate (id : Nat)
  | timerFired (id : Nat)
deriving DecidableEq, Repr

structure Timer where
  id : Nat
  /-- When the current wait began. -/
  since : Nat
  deadline : Nat
  /-- The time between two firings of a repeating timer. -/
  period : Option Nat
  cancelledAt : Option Nat := none
deriving DecidableEq, Repr

namespace Timer

/-- The next moment at which the timer does something: it fires at its deadline,
or it notices that it was cancelled at the end of a slice. -/
def wakesAt (timer : Timer) (slice : Nat) : Nat :=
  match timer.cancelledAt with
  | none => timer.deadline
  | some moment =>
    min timer.deadline (timer.since + ((moment - timer.since) / slice + 1) * slice)

end Timer

/-- Why the system refuses a thread to the timer of a number, if it does. -/
abbrev ThreadPolicy := Nat → Option String

/-- Every timer gets its thread. -/
def ThreadPolicy.lenient : ThreadPolicy := fun _ => none

structure Scheduler (α : Type) where
  now : Nat := 0
  nextId : Nat := 1
  queue : List Job := []
  tasks : List (Nat × Task α) := []
  timers : List Timer := []
  slice : Nat
  threads : ThreadPolicy := .lenient

namespace Scheduler

variable {α : Type}

def nanosPerMilli : Nat := 1000000

/-- A scheduler without work; a slice lasts a millisecond at least. -/
def new (sliceMillis : Nat) (threads : ThreadPolicy := .lenient) : Scheduler α :=
  { slice := max sliceMillis 1 * nanosPerMilli
    threads }

def task? (scheduler : Scheduler α) (id : Nat) : Option (Task α) :=
  scheduler.tasks.lookup id

def dropTask (scheduler : Scheduler α) (id : Nat) : Scheduler α :=
  { scheduler with tasks := scheduler.tasks.filter fun entry => entry.1 != id }

def timer? (scheduler : Scheduler α) (id : Nat) : Option Timer :=
  scheduler.timers.find? fun timer => timer.id == id

/-- Queue a callback behind everything that is already queued. -/
def enqueue (scheduler : Scheduler α) (task : Task α) : Nat × Scheduler α :=
  let id := scheduler.nextId
  (id, { scheduler with
    nextId := id + 1
    queue := scheduler.queue ++ [.immediate id]
    tasks := scheduler.tasks ++ [(id, task)] })

/-- Enter a timer that fires after `delay`, and again every `delay` (a
millisecond at least) if it repeats. -/
def arm (scheduler : Scheduler α) (delay : Nat) (task : Task α) (repeats : Bool) :
    Nat × Scheduler α :=
  let id := scheduler.nextId
  let timer : Timer :=
    { id
      since := scheduler.now
      deadline := scheduler.now + delay
      period := if repeats then some (max delay nanosPerMilli) else none }
  (id, { scheduler with
    nextId := id + 1
    tasks := scheduler.tasks ++ [(id, task)]
    timers := scheduler.timers ++ [timer] })

/-- A timer without a thread is taken back; only its number is used up. -/
def refuse (scheduler : Scheduler α) : Scheduler α :=
  { scheduler with nextId := scheduler.nextId + 1 }

/-- Start a timer, or tell why the system refused it a thread. -/
def start (scheduler : Scheduler α) (delay : Nat) (task : Task α) (repeats : Bool) :
    Except String Nat × Scheduler α :=
  match scheduler.threads scheduler.nextId with
  | none =>
    let (id, armed) := scheduler.arm delay task repeats
    (.ok id, armed)
  | some reason => (.error reason, scheduler.refuse)

/-- Withdraw the callback of this number and cancel the timer.  The answer tells
whether there was a timer. -/
def cancel (scheduler : Scheduler α) (id : Nat) : Bool × Scheduler α :=
  let timers := scheduler.timers.map fun timer =>
    if timer.id == id && timer.cancelledAt.isNone then
      { timer with cancelledAt := some scheduler.now }
    else timer
  ((scheduler.timer? id).isSome, { scheduler.dropTask id with timers })

/-- The timer that wakes first; of several, the one that was started first. -/
def earliest? (scheduler : Scheduler α) : Option Timer :=
  scheduler.timers.foldl (fun best timer =>
    match best with
    | none => some timer
    | some other =>
      if timer.wakesAt scheduler.slice < other.wakesAt scheduler.slice then some timer
      else best) none

/-- Let a timer wake.  If it was cancelled it is given up; else its job is
queued, and it waits again if it repeats. -/
def wake (scheduler : Scheduler α) (timer : Timer) : Scheduler α :=
  let moment := max scheduler.now (timer.wakesAt scheduler.slice)
  let others := scheduler.timers.filter fun other => other.id != timer.id
  match timer.cancelledAt, timer.period with
  | some _, _ => { scheduler with now := moment, timers := others }
  | none, none =>
    { scheduler with
      now := moment
      queue := scheduler.queue ++ [.timerFired timer.id]
      timers := others }
  | none, some period =>
    let again := { timer with since := moment, deadline := moment + period }
    { scheduler with
      now := moment
      queue := scheduler.queue ++ [.timerFired timer.id]
      timers := scheduler.timers.map fun other => if other.id == timer.id then again else other }

/-- The next job, waiting for timers while none is queued.  Every round of
waiting queues a job or gives up a timer, so their number bounds the rounds. -/
def nextWithin : Nat → Scheduler α → Option Job × Scheduler α
  | rounds, scheduler =>
    match scheduler.queue with
    | job :: queue => (some job, { scheduler with queue })
    | [] =>
      match rounds, scheduler.earliest? with
      | rounds + 1, some timer => nextWithin rounds (scheduler.wake timer)
      | _, _ => (none, scheduler)

/-- The next job to run, or none once no job is queued and no timer is left. -/
def next (scheduler : Scheduler α) : Option Job × Scheduler α :=
  nextWithin (scheduler.timers.length + 1) scheduler

/-- The callback that a job names, if it is still wanted.  The callback of a
repeating timer stays for the next time. -/
def take (scheduler : Scheduler α) (job : Job) : Option (Task α) × Scheduler α :=
  match job with
  | .immediate id => (scheduler.task? id, scheduler.dropTask id)
  | .timerFired id =>
    if (scheduler.timer? id).any fun timer => timer.period.isSome then
      (scheduler.task? id, scheduler)
    else (scheduler.task? id, scheduler.dropTask id)

/-- Give up every timer and every callback; queued jobs stay and lead nowhere. -/
def shutdown (scheduler : Scheduler α) : Scheduler α :=
  { scheduler with tasks := [], timers := [] }

end Scheduler

end Hati
