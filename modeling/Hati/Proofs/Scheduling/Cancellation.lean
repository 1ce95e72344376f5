import Hati.Proofs.Scheduling.Interleaving

namespace Hati

/-!
# A cancelled timer is silent

A thread looks for the cancellation of its timer only now and then, so jobs of a
cancelled timer may be queued already or may still follow.  None of them finds a
callback: cancelling takes the callback out of the table, and nothing puts another
one under the same number, because numbers are not given out again.
-/

namespace Scheduler

variable {α : Type}

theorem timer?_cancel_of_ne (scheduler : Scheduler α) {id other : Nat} (apart : other ≠ id) :
    (scheduler.cancel id).2.timer? other = scheduler.timer? other := by
  show List.find? _ (List.map _ scheduler.timers) = List.find? _ scheduler.timers
  induction scheduler.timers with
  | nil => rfl
  | cons timer timers ih =>
      rw [List.map_cons]
      by_cases same : timer.id = id
      · have kept : ∀ {changed : Timer}, changed.id = id → (changed.id == other) = false := by
          intro changed named
          exact beq_false_of_ne fun found => apart (found.symm.trans named)
        rw [List.find?_cons, List.find?_cons, kept (by split <;> exact same), kept same, ih]
      · have untouched : (timer.id == id && timer.cancelledAt.isNone) = false := by simp [same]
        rw [untouched, if_neg Bool.false_ne_true, List.find?_cons, List.find?_cons, ih]

namespace Runs

variable {allowed : List (Act α) → Snapshot α → Act α → Prop} {sliceMillis : Nat}
  {past : List (Act α)} {now : Snapshot α}

/-- Once a timer was cancelled, there is no callback under its number. -/
theorem task?_of_cancelled (run : Runs allowed sliceMillis past now) {id : Nat} {task : Task α}
    {repeats : Bool} : ∀ {before after : List (Act α)}, past = before ++ .cancel id :: after →
      .arm id task repeats ∈ before → now.scheduler.task? id = none := by
  induction run with
  | start =>
      intro before after split
      cases before <;> cases split
  | @step earlier previous later act run step _ ih =>
      intro before after split armed
      rcases List.eq_nil_or_concat after with last | ⟨rest, final, longer⟩
      · -- The last step is the cancellation itself.
        subst last
        rcases List.append_inj' split rfl with ⟨-, same⟩
        rw [(List.cons.inj same).1] at step
        cases step with
        | cancel => exact (task?_cancel previous.scheduler id id).trans (if_pos rfl)
      · -- The callback was gone before the last step.
        subst longer
        rw [List.concat_eq_append, ← List.cons_append, ← List.append_assoc] at split
        rcases List.append_inj' split rfl with ⟨earlierSplit, -⟩
        have gone := ih earlierSplit armed
        have known : id < previous.scheduler.nextId :=
          run.issued (earlierSplit ▸ List.mem_append_left _ armed)
        exact step.task?_none known gone

/-- However the parties interleave, no job of a cancelled timer finds a callback, and a
cancellation leaves the callbacks and the entries of the other timers alone. -/
theorem cancellation_safe (run : Runs allowed sliceMillis past now) (id : Nat) :
    (∀ before after task repeats, past = before ++ .cancel id :: after →
      .arm id task repeats ∈ before → (now.scheduler.take (.timerFired id)).1 = none) ∧
    ∀ other ≠ id,
      (now.scheduler.cancel id).2.task? other = now.scheduler.task? other ∧
      (now.scheduler.cancel id).2.timer? other = now.scheduler.timer? other := by
  constructor
  · intro before after task repeats split armed
    rw [take_fst]
    exact run.task?_of_cancelled split armed
  · intro other apart
    constructor
    · rw [task?_cancel, if_neg apart]
    · exact timer?_cancel_of_ne now.scheduler apart

/-- A timer that repeats falls due and is cancelled before its thread queues the job. -/
theorem cancellation_safe_late_job : ∃ now : Snapshot Nat,
    Runs Orderly 5 [.arm 1 ⟨7, []⟩ true, .arm 2 ⟨8, []⟩ false, .move 1, .cancel 1, .fire 1] now ∧
    now.scheduler.queue = [.timerFired 1] ∧
    (now.scheduler.take (.timerFired 1)).1 = none ∧
    (now.scheduler.cancel 1).2.task? 2 = some ⟨8, []⟩ := by
  have fresh : Runs Orderly 5 [] { scheduler := (new 5 : Scheduler Nat) } := .start
  have armed := fresh.step (.arm _ 3 ⟨7, []⟩ true) trivial
  have both := armed.step (.arm _ 9 ⟨8, []⟩ false) trivial
  have due := both.step (.fallDue _ _ 3 List.mem_cons_self rfl rfl) trivial
  have cancelled := due.step (.cancel _ 1) ⟨_, _, List.mem_cons_self⟩
  have fired := cancelled.step (.fire _ _ List.mem_cons_self rfl) trivial
  refine ⟨_, fired, rfl, ?_, ?_⟩
  · exact (fired.cancellation_safe 1).1 [.arm 1 ⟨7, []⟩ true, .arm 2 ⟨8, []⟩ false, .move 1]
      [.fire 1] ⟨7, []⟩ true rfl List.mem_cons_self
  · exact ((fired.cancellation_safe 1).2 2 (by decide)).1

end Runs

end Scheduler

end Hati
