import Hati.Proofs.ReturnPropagation

namespace Hati

/-!
# Going through a list

A loop that is handed a list visits its items from the first one on.  It ends behind the last item,
at the first result that decides the matter, or at the first visit that fails; what the visits do to
the machine has no part in which items are visited.

The loops over lists that the language is built from are all this one loop, followed by a
conclusion that is drawn from the results.
-/

namespace Run

variable {ι α β : Type}

theorem map_apply (f : α → β) (run : Run α) (before : Machine) :
    (f <$> run) before =
      match run before with
      | .ok value after => .ok (f value) after
      | .error halt after => .error halt after := by
  show EStateM.map f run before = _
  unfold EStateM.map
  cases run before <;> rfl

/-- The items were visited in order, each on the machine that the visit before left behind. -/
inductive Each (visit : ι → Run α) : List ι → Machine → List α → Machine → Prop where
  | none (machine : Machine) : Each visit [] machine [] machine
  | next {item : ι} {items : List ι} {result : α} {results : List α}
    {before middle after : Machine} (ends : visit item before = .ok result middle)
    (rest : Each visit items middle results after) :
    Each visit (item :: items) before (result :: results) after

theorem Each.length_eq {visit : ι → Run α} {items : List ι} {results : List α}
    {before after : Machine} (each : Each visit items before results after) :
    results.length = items.length := by
  induction each with
  | none => rfl
  | next _ _ ih => exact congrArg (· + 1) ih

/-- How going through the items can end. -/
inductive Passage (stops : α → Bool) (visit : ι → Run α) (items : List ι) (before : Machine) :
    EStateM.Result Halt Machine (List α) → Prop where
  | finished {results : List α} {after : Machine} (each : Each visit items before results after)
    (goesOn : ∀ result ∈ results, stops result = false) :
    Passage stops visit items before (.ok results after)
  | stopped {front back : List ι} {item : ι} {results : List α} {result : α}
    {middle after : Machine} (split : items = front ++ item :: back)
    (each : Each visit front before results middle)
    (goesOn : ∀ result ∈ results, stops result = false)
    (ends : visit item middle = .ok result after) (decides : stops result = true) :
    Passage stops visit items before (.ok (results ++ [result]) after)
  | failed {front back : List ι} {item : ι} {results : List α} {halt : Halt}
    {middle after : Machine} (split : items = front ++ item :: back)
    (each : Each visit front before results middle)
    (goesOn : ∀ result ∈ results, stops result = false)
    (fails : visit item middle = .error halt after) :
    Passage stops visit items before (.error halt after)

/-- Visit the items in order, up to the first result that stops. -/
def through (stops : α → Bool) (visit : ι → Run α) : List ι → Run (List α)
  | [] => pure []
  | item :: items => do
    let result ← visit item
    if stops result then pure [result]
    else do
      let results ← through stops visit items
      pure (result :: results)

section Loop

variable {stops : α → Bool} {visit : ι → Run α}

theorem passage_through (items : List ι) :
    ∀ before, Passage stops visit items before (through stops visit items before) := by
  induction items with
  | nil => exact fun before => .finished (.none before) nofun
  | cons item items ih =>
      intro before
      cases visited : visit item before with
      | error halt after =>
          rw [through, bind_of_error visited]
          exact .failed rfl (.none before) nofun visited
      | ok result middle =>
          rw [through, bind_of_ok visited]
          cases decided : stops result with
          | true => exact .stopped rfl (.none before) nofun visited decided
          | false =>
              -- What was visited in the rest comes behind the first item.
              have goesOn {results : List α} (others : ∀ other ∈ results, stops other = false) :
                  ∀ other ∈ result :: results, stops other = false :=
                List.forall_mem_cons.mpr ⟨decided, others⟩
              have rest := ih middle
              rw [if_neg Bool.false_ne_true]
              cases further : through stops visit items middle with
              | ok results after =>
                  rw [bind_of_ok further]
                  rw [further] at rest
                  cases rest with
                  | finished each others => exact .finished (.next visited each) (goesOn others)
                  | stopped split each others ends decides =>
                      exact .stopped (congrArg (item :: ·) split) (.next visited each)
                        (goesOn others) ends decides
              | error halt after =>
                  rw [bind_of_error further]
                  rw [further] at rest
                  cases rest with
                  | failed split each others fails =>
                      exact .failed (congrArg (item :: ·) split) (.next visited each)
                        (goesOn others) fails

/-- Where no result stops, all items are visited. -/
theorem Passage.each {items : List ι} {before after : Machine} {results : List α}
    (passage : Passage (fun _ => false) visit items before (.ok results after)) :
    Each visit items before results after := by
  cases passage with
  | finished each _ => exact each
  | stopped _ _ _ _ decides => cases decides

/-! ## The loops of the language -/

/-- The items with a result that passes the test. -/
def passing (test : α → Bool) (items : List ι) (results : List α) : List ι :=
  ((items.zip results).filter fun pair => test pair.2).map Prod.fst

theorem mapM_eq_through (f : α → β) (visit : ι → Run α) (items : List ι) :
    items.mapM (fun item => f <$> visit item) =
      List.map f <$> through (fun _ => false) visit items := by
  induction items with
  | nil => rfl
  | cons item items ih =>
      simp only [List.mapM_cons, through, ih, bind_map_left, map_bind]
      refine bind_congr fun result => ?_
      simp

theorem mapM_eq_through_visit (visit : ι → Run α) (items : List ι) :
    items.mapM visit = through (fun _ => false) visit items := by
  simpa using mapM_eq_through id visit items

end Loop

/-! ## Folds -/

end Run

end Hati
