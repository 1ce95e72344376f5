import Hati.Proofs.ScopeIntegrity
import Hati.Proofs.Sessions

namespace Hati

/-!
# Names and the frames that own them

Whether a name is bound, what it is bound to and which frame owns it are three walks outwards from
a scope.  They come to the same frame: the nearest one that binds the name.

An assignment is made through one scope, but every scope that has the frame among its own may see
it.  The value is seen from exactly those scopes whose nearest frame for the name is the one that
was written.  They need not be the ones that saw the frame before, since a frame that had not
bound the name may have come to hide what scopes inside it saw further out.
-/

/-- A search has one answer. -/
theorem Search.unique {ι α : Type} {next : ι → Option ι} {answer : ι → Option α} {here : ι}
    {result other : Option α} (searched : Search next answer here result)
    (again : Search next answer here other) : result = other := by
  induction searched with
  | found answers =>
      cases again with
      | found answersToo => exact answers.symm.trans answersToo
      | missed silent _ => exact absurd (answers.symm.trans silent) nofun
      | step silent _ _ => exact absurd (answers.symm.trans silent) nofun
  | missed silent ends =>
      cases again with
      | found answers => exact absurd (answers.symm.trans silent) nofun
      | missed => rfl
      | step _ leads _ => exact absurd (leads.symm.trans ends) nofun
  | step silent leads _ ih =>
      cases again with
      | found answers => exact absurd (answers.symm.trans silent) nofun
      | missed _ ends => exact absurd (leads.symm.trans ends) nofun
      | step _ leadsToo further =>
          cases leads.symm.trans leadsToo
          exact ih further

namespace Heap

variable {heap : Heap} {scope owner : FrameRef} {name : String}

/-- Going outwards from the scope, the first frame to bind the name is the owner. -/
def IsNearest (heap : Heap) (name : String) (scope owner : FrameRef) : Prop :=
  Search heap.outer? (heap.binder? name) scope (some owner)

/-! ## The walks agree -/

theorem IsForest.frameOf?_eq_some_iff (forest : heap.IsForest) :
    heap.frameOf? scope name = some owner ↔ heap.IsNearest name scope owner := by
  have searched : Search heap.outer? (heap.binder? name) scope (heap.frameOf? scope name) :=
    frameOf?_eq scope name ▸ (forest.walk_scopeChain scope).search _
  constructor
  · intro found
    rwa [found] at searched
  · exact fun nearest => searched.unique nearest

private theorem findSome?_localBinding? (chain : List FrameRef) :
    chain.findSome? (heap.localBinding? · name) =
      (chain.find? fun ref => (heap.frame ref).bindings.contains name).bind
        (heap.localBinding? · name) := by
  induction chain with
  | nil => rfl
  | cons ref chain ih =>
      rw [List.findSome?_cons, List.find?_cons, contains_bindings]
      cases bound : heap.localBinding? ref name with
      | some binding => exact bound.symm
      | none => exact ih

theorem lookup?_eq_bind (scope : FrameRef) (name : String) :
    heap.lookup? scope name = (heap.frameOf? scope name).bind (heap.localBinding? · name) :=
  findSome?_localBinding? _

/-- A scope finds what the frame holds that owns the name. -/
theorem lookup?_of_frameOf? (found : heap.frameOf? scope name = some owner) :
    heap.lookup? scope name = heap.localBinding? owner name := by
  rw [lookup?_eq_bind, found]
  rfl

/-- The three walks from a scope agree about a name. -/
structure Resolves (heap : Heap) (scope : FrameRef) (name : String) : Prop where
  bound : heap.isBound scope name = true ↔ ∃ binding, heap.lookup? scope name = some binding
  owned : (∃ binding, heap.lookup? scope name = some binding) ↔
    ∃ owner, heap.frameOf? scope name = some owner
  nearest : ∀ owner, heap.frameOf? scope name = some owner ↔ heap.IsNearest name scope owner
  stored : ∀ owner, heap.frameOf? scope name = some owner →
    ∃ binding, heap.localBinding? owner name = some binding ∧
      heap.lookup? scope name = some binding

theorem IsForest.resolves (forest : heap.IsForest) (scope : FrameRef) (name : String) :
    heap.Resolves scope name := by
  have stored : ∀ owner, heap.frameOf? scope name = some owner →
      ∃ binding, heap.localBinding? owner name = some binding ∧
        heap.lookup? scope name = some binding := by
    intro owner found
    obtain ⟨binding, bound⟩ := Option.isSome_iff_exists.mp (isSome_localBinding?_of_frameOf? found)
    exact ⟨binding, bound, (lookup?_of_frameOf? found).trans bound⟩
  have owned : (∃ binding, heap.lookup? scope name = some binding) ↔
      ∃ owner, heap.frameOf? scope name = some owner := by
    constructor
    · rintro ⟨binding, found⟩
      rw [lookup?_eq_bind] at found
      obtain ⟨owner, owns, -⟩ := Option.bind_eq_some_iff.mp found
      exact ⟨owner, owns⟩
    · rintro ⟨owner, owns⟩
      obtain ⟨binding, -, found⟩ := stored owner owns
      exact ⟨binding, found⟩
  refine ⟨?_, owned, fun owner => forest.frameOf?_eq_some_iff, stored⟩
  rw [owned, isBound_eq, Option.isSome_iff_exists]

/-! ## Binding a name -/

/-- The frame that an assignment is meant for. -/
def assignee (heap : Heap) (scope : FrameRef) (name : String) : FrameRef :=
  (heap.frameOf? scope name).getD scope

theorem localBinding?_assignee_of_none (unowned : heap.frameOf? scope name = none) :
    heap.localBinding? scope name = none := by
  have missed := List.find?_eq_none.mp unowned scope List.mem_cons_self
  rw [contains_bindings] at missed
  simpa using missed

/-- Only a constant of the frame that it is meant for refuses an assignment. -/
theorem assignmentFrame_eq (scope : FrameRef) (name : String) :
    heap.assignmentFrame scope name =
      if (heap.localBinding? (heap.assignee scope name) name).any Binding.isConstant then
        .error (.constantAssigned name)
      else .ok (heap.assignee scope name) := by
  unfold assignmentFrame assignee
  cases owned : heap.frameOf? scope name with
  | none => simp [localBinding?_assignee_of_none owned]
  | some owner => rfl

theorem allocated_assignee (inside : heap.HasFrame scope) (name : String) :
    heap.HasFrame (heap.assignee scope name) := by
  unfold assignee
  cases owned : heap.frameOf? scope name with
  | none => exact inside
  | some owner =>
      refine Nat.lt_of_not_le fun (outside : heap.frames.size ≤ owner.index) => ?_
      have bound := isSome_localBinding?_of_frameOf? owned
      rw [localBinding?, frame_of_size_le outside] at bound
      cases bound

section Binding

variable {binding : Binding} {frame : FrameRef}

theorem scopeChain_bind (heap : Heap) (frame scope : FrameRef) (name : String)
    (binding : Binding) :
    (heap.bind frame name binding).scopeChain scope = heap.scopeChain scope :=
  framesFrom_congr _ _ fun ref _ => parent_frame_bind heap frame ref name binding

theorem IsForest.bind (forest : heap.IsForest) (frame : FrameRef) (name : String)
    (binding : Binding) : (heap.bind frame name binding).IsForest := by
  intro ref parent around
  refine forest ref parent ?_
  rwa [outer?, parent_frame_bind] at around

/-- Binding a name changes nothing of what frames hold under other names, or other frames under
this one. -/
theorem localBinding?_bind_of_ne {ref : FrameRef} {other : String}
    (apart : ¬(ref = frame ∧ other = name)) :
    (heap.bind frame name binding).localBinding? ref other = heap.localBinding? ref other := by
  by_cases allocated : ref.index < heap.frames.size
  · rw [localBinding?_bind allocated, if_neg apart]
  · have outside := Nat.le_of_not_lt allocated
    have still : (heap.bind frame name binding).frames.size ≤ ref.index := by
      simpa [Heap.bind] using outside
    rw [localBinding?, localBinding?, frame_of_size_le still, frame_of_size_le outside]

theorem lookup?_bind_of_ne {other : String} (apart : other ≠ name) (scope : FrameRef) :
    (heap.bind frame name binding).lookup? scope other = heap.lookup? scope other := by
  unfold lookup?
  rw [scopeChain_bind]
  exact congrArg (List.findSome? · _)
    (funext fun ref => localBinding?_bind_of_ne fun same => apart same.2)

private theorem findSome?_bind (allocated : heap.HasFrame frame) (chain : List FrameRef) :
    chain.findSome? ((heap.bind frame name binding).localBinding? · name) =
      if (chain.find? fun ref =>
          ((heap.bind frame name binding).frame ref).bindings.contains name) = some frame
      then some binding else chain.findSome? (heap.localBinding? · name) := by
  induction chain with
  | nil => rfl
  | cons ref chain ih =>
      rw [List.findSome?_cons, List.findSome?_cons, List.find?_cons, contains_bindings]
      by_cases here : ref = frame
      · subst here
        rw [localBinding?_bind allocated, if_pos ⟨rfl, rfl⟩]
        simp
      · rw [localBinding?_bind_of_ne fun same => here same.1]
        cases bound : heap.localBinding? ref name with
        | some old => simp [here]
        | none => exact ih

/-- The binding is found from where its frame is the nearest to bind the name. -/
theorem lookup?_bind (allocated : heap.HasFrame frame) (scope : FrameRef) :
    (heap.bind frame name binding).lookup? scope name =
      if (heap.bind frame name binding).frameOf? scope name = some frame
      then some binding else heap.lookup? scope name := by
  unfold lookup? frameOf?
  rw [scopeChain_bind]
  exact findSome?_bind allocated _

/-- The frame that an assignment is meant for owns the name afterwards. -/
theorem frameOf?_bind_assignee (inside : heap.HasFrame scope) :
    (heap.bind (heap.assignee scope name) name binding).frameOf? scope name =
      some (heap.assignee scope name) := by
  have written : ((heap.bind (heap.assignee scope name) name binding).localBinding?
      (heap.assignee scope name) name).isSome = true := by
    rw [localBinding?_bind (allocated_assignee inside name), if_pos ⟨rfl, rfl⟩]
    rfl
  cases owned : heap.frameOf? scope name with
  | none =>
      have here : heap.assignee scope name = scope := by rw [assignee, owned]; rfl
      rw [here] at written ⊢
      rw [frameOf?, scopeChain_bind, scopeChain, framesFrom]
      exact List.find?_cons_of_pos (by rwa [contains_bindings])
  | some owner =>
      -- The owner held the name before, so every frame binds the name as before.
      have here : heap.assignee scope name = owner := by rw [assignee, owned]; rfl
      rw [here] at written ⊢
      rw [← owned, frameOf?, frameOf?, scopeChain_bind]
      refine congrArg (List.find? · _) (funext fun ref => ?_)
      rw [contains_bindings, contains_bindings]
      by_cases same : ref = owner
      · rw [same, written, isSome_localBinding?_of_frameOf? owned]
      · rw [localBinding?_bind_of_ne fun both => same both.1]

end Binding

/-! ## Assignments -/

/-- A frame holds a constant under the name. -/
def HoldsConstant (heap : Heap) (frame : FrameRef) (name : String) : Prop :=
  ∃ binding, heap.localBinding? frame name = some binding ∧ binding.isConstant = true

/-- What the scopes see after a value has been given to the name in the owner. -/
structure Assigns (before after : Heap) (owner : FrameRef) (name : String) (value : Value) :
    Prop where
  seen : ∀ scope, after.IsNearest name scope owner →
    after.lookup? scope name = some { value, isConstant := false }
  others : ∀ scope other, ¬ (other = name ∧ after.IsNearest name scope owner) →
    after.lookup? scope other = before.lookup? scope other

theorem IsForest.assigns_bind (forest : heap.IsForest) (allocated : heap.HasFrame owner)
    (name : String) (value : Value) :
    heap.Assigns (heap.bind owner name { value }) owner name value := by
  have after := forest.bind owner name { value }
  constructor
  · intro scope nearest
    rw [lookup?_bind allocated, if_pos (after.frameOf?_eq_some_iff.mpr nearest)]
  · intro scope other apart
    by_cases same : other = name
    · subst same
      rw [lookup?_bind allocated, if_neg]
      exact fun nearest => apart ⟨rfl, after.frameOf?_eq_some_iff.mp nearest⟩
    · exact lookup?_bind_of_ne same scope

/-- Only a constant of the frame that it is meant for refuses an assignment. -/
theorem assignmentFrame_of_holdsConstant
    (holds : heap.HoldsConstant (heap.assignee scope name) name) :
    heap.assignmentFrame scope name = .error (.constantAssigned name) := by
  obtain ⟨binding, bound, constant⟩ := holds
  rw [assignmentFrame_eq, bound]
  exact if_pos constant

theorem assignmentFrame_of_not_holdsConstant
    (free : ¬ heap.HoldsConstant (heap.assignee scope name) name) :
    heap.assignmentFrame scope name = .ok (heap.assignee scope name) := by
  rw [assignmentFrame_eq, if_neg]
  intro constant
  cases bound : heap.localBinding? (heap.assignee scope name) name with
  | none => simp [bound] at constant
  | some binding => exact free ⟨binding, bound, by simpa [bound] using constant⟩

end Heap

theorem Run.assign_apply (scope : FrameRef) (name : String) (value : Value) (span : Span)
    (machine : Machine) :
    Run.assign scope name value span machine =
      match machine.heap.assignmentFrame scope name with
      | .ok owner => .ok () { machine with heap := machine.heap.bind owner name { value } }
      | .error cause => .error (.fault ⟨cause, span⟩) machine := by
  show (Run.lift span (machine.heap.assignmentFrame scope name) >>= _) machine = _
  cases machine.heap.assignmentFrame scope name <;> rfl

/-- In every forest of frames the walks from a scope agree about every name.  An assignment through
a scope is refused, and changes nothing, if and only if it is meant for a frame that holds the name
as a constant.  Otherwise the value is afterwards seen from exactly those scopes whose nearest frame
for the name is that frame, and everything else is seen as before. -/
theorem Machine.resolution {machine : Machine} (forest : machine.heap.IsForest) :
    (∀ scope name, machine.heap.Resolves scope name) ∧
    ∀ (scope : FrameRef) (name : String) (value : Value) (span : Span),
      machine.heap.HasFrame scope →
      let owner := machine.heap.assignee scope name
      (machine.heap.HoldsConstant owner name →
        Run.assign scope name value span machine =
          .error (.fault ⟨.constantAssigned name, span⟩) machine) ∧
      (¬ machine.heap.HoldsConstant owner name → ∃ after,
        Run.assign scope name value span machine = .ok () { machine with heap := after } ∧
        after.IsNearest name scope owner ∧
        machine.heap.Assigns after owner name value) := by
  refine ⟨forest.resolves, fun scope name value span inside => ⟨fun constant => ?_, fun free => ?_⟩⟩
  · rw [Run.assign_apply, Heap.assignmentFrame_of_holdsConstant constant]
  · have allocated := Heap.allocated_assignee inside name
    refine ⟨machine.heap.bind (machine.heap.assignee scope name) name { value }, ?_, ?_, ?_⟩
    · rw [Run.assign_apply, Heap.assignmentFrame_of_not_holdsConstant free]
    · exact (forest.bind _ _ _).frameOf?_eq_some_iff.mp (Heap.frameOf?_bind_assignee inside)
    · exact forest.assigns_bind allocated name value

/-- Three scopes inside one another; the innermost one hides a name of the outermost one, which also
holds a constant. -/
def nested : Machine where
  heap := { frames := #[
    { bindings := .ofList [("x", { value := .text "outer" }),
      ("k", { value := .null, isConstant := true })] },
    { parent := some ⟨0⟩ },
    { parent := some ⟨1⟩, bindings := .ofList [("x", { value := .text "inner" })] }] }

theorem nested_isForest : nested.heap.IsForest
  | ⟨0⟩, _, around => nomatch around
  | ⟨1⟩, _, rfl => Nat.zero_lt_one
  | ⟨2⟩, _, rfl => Nat.one_lt_two
  | ⟨_ + 3⟩, _, around => by
      rw [Heap.outer?, Heap.frame_of_size_le (Nat.le_add_left 3 _)] at around
      cases around

/-- From the middle the outermost variable is assigned to, and its constant refuses. -/
theorem nested_resolution :
    (∀ scope name, nested.heap.Resolves scope name) ∧
    Run.assign ⟨1⟩ "k" .null {} nested = .error (.fault ⟨.constantAssigned "k", {}⟩) nested ∧
    ∃ after, Run.assign ⟨1⟩ "x" (.bool true) {} nested = .ok () { nested with heap := after } ∧
      after.IsNearest "x" ⟨1⟩ ⟨0⟩ ∧ nested.heap.Assigns after ⟨0⟩ "x" (.bool true) := by
  have assigns := (Machine.resolution nested_isForest).2 ⟨1⟩
  have inside : nested.heap.HasFrame ⟨1⟩ := Nat.lt_of_sub_pos Nat.zero_lt_two
  refine ⟨(Machine.resolution nested_isForest).1, ?_, ?_⟩
  · exact (assigns "k" .null {} inside).1 ⟨_, rfl, rfl⟩
  · refine (assigns "x" (.bool true) {} inside).2 ?_
    rintro ⟨binding, bound, constant⟩
    cases bound
    cases constant

end Hati
