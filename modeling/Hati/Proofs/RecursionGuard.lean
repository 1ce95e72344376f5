import Hati.Proofs.Rationing

namespace Hati

/-!
# The recursion guard

A declared function is called only while fewer calls are open than allowed.  Two
ways of recursion pass by this guard: a class may construct instances of itself
while the fields of an instance are initialized, and built-in functions may call
each other back.  There are no others: a program without unbounded loops ends
exactly if constructions and built-in calls do not open without end.
-/

/-! ## A class that makes instances of itself -/

/-- An expression that makes an instance of the class `A`. -/
def newNested : Expr :=
  ⟨.construct ⟨.name "A", {}⟩ [], {}⟩

/-- A class `A` with a field that is initially another instance of `A`. -/
def nestedClass : ClassDecl :=
  { name := "A", superclass := none, fields := [{ name := "inner", value := some newNested }],
    methods := [] }

/-- Declare the class and make one instance. -/
def nesting : List Stmt :=
  [⟨.class nestedClass, {}⟩, ⟨.expression newNested, {}⟩]

theorem nesting_loopFree : ∀ stmt ∈ nesting, (Code.stmt stmt).Lacks Code.IsLoop := by
  have construction : (Code.expr newNested).Lacks Code.IsLoop := by
    refine .intro id fun part member => ?_
    obtain rfl : part = .expr ⟨.name "A", {}⟩ := by
      simpa [newNested, Code.parts, ExprNode.parts] using member
    exact .intro id fun _ member => absurd member List.not_mem_nil
  intro stmt member
  simp only [nesting, List.mem_cons, List.not_mem_nil, or_false] at member
  rcases member with rfl | rfl
  · refine .intro Bool.false_ne_true fun part member => ?_
    obtain rfl : part = .expr newNested := by
      simpa [Code.parts, StmtNode.parts, ClassDecl.parts, nestedClass] using member
    exact construction
  · refine .intro Bool.false_ne_true fun part member => ?_
    obtain rfl : part = .expr newNested := by
      simpa [Code.parts, StmtNode.parts] using member
    exact construction

namespace Run

variable {α β : Type} {pre : Machine → Prop} {post : α → Machine → Prop}

/-- From machines of one kind the run ends on machines of another kind. -/
def Leads (pre : Machine → Prop) (run : Run α) (post : α → Machine → Prop) : Prop :=
  ∀ machine, pre machine → ∃ a after, run machine = .ok a after ∧ post a after

/-- From machines of one kind the run goes on until its fuel is used up. -/
def Exhausts (pre : Machine → Prop) (run : Run α) : Prop :=
  ∀ machine, pre machine → ∃ after, run machine = .error .exhausted after

theorem Leads.read {f : Heap → α} (holds : ∀ machine, pre machine → post (f machine.heap) machine) :
    Leads pre (Run.read f) post :=
  fun machine held => ⟨_, machine, rfl, holds machine held⟩

theorem Leads.bind {run : Run α} {next : α → Run β} {last : β → Machine → Prop}
    (leads : Leads pre run post) (rest : ∀ a, Leads (post a) (next a) last) :
    Leads pre (run >>= next) last := by
  intro machine held
  obtain ⟨a, after, ran, holds⟩ := leads machine held
  obtain ⟨b, final, ranRest, holdsRest⟩ := rest a after holds
  refine ⟨b, final, ?_, holdsRest⟩
  show EStateM.bind run next machine = _
  rw [EStateM.bind, ran]
  exact ranRest

theorem Exhausts.first {run : Run α} {next : α → Run β} (exhausts : Exhausts pre run) :
    Exhausts pre (run >>= next) := by
  intro machine held
  obtain ⟨after, ran⟩ := exhausts machine held
  refine ⟨after, ?_⟩
  show EStateM.bind run next machine = _
  rw [EStateM.bind, ran]

theorem Exhausts.after {run : Run α} {next : α → Run β} (leads : Leads pre run post)
    (rest : ∀ a, Exhausts (post a) (next a)) : Exhausts pre (run >>= next) := by
  intro machine held
  obtain ⟨a, after, ran, holds⟩ := leads machine held
  obtain ⟨last, ranRest⟩ := rest a after holds
  refine ⟨last, ?_⟩
  show EStateM.bind run next machine = _
  rw [EStateM.bind, ran]
  exact ranRest

end Run

namespace Heap

/-- The first frame is there, and no scope is around it. -/
structure HasOutermost (heap : Heap) : Prop where
  allocated : 0 < heap.frames.size
  outermost : (heap.frame ⟨0⟩).parent = none

/-- The class is declared in the outermost scope, under its name. -/
structure HoldsNested (heap : Heap) (cls : ClassRef) : Prop extends HasOutermost heap where
  decl : (heap.class cls).decl = nestedClass
  superclass : (heap.class cls).superclass = none
  scope : (heap.class cls).scope = ⟨0⟩
  bound : (heap.localBinding? ⟨0⟩ "A").map Binding.value = some (.class cls)

/-- The class is what its name stands for in the scope. -/
def SeesNested (heap : Heap) (cls : ClassRef) (scope : FrameRef) : Prop :=
  (heap.lookup? scope "A").map Binding.value = some (.class cls)

namespace HoldsNested

variable {heap after : Heap} {cls : ClassRef}

theorem congr (holds : heap.HoldsNested cls) (frames : after.frames = heap.frames)
    (classes : after.classes = heap.classes) : after.HoldsNested cls := by
  have sameClass : after.class cls = heap.class cls := by rw [Heap.class, Heap.class, classes]
  have sameFrame : after.frame ⟨0⟩ = heap.frame ⟨0⟩ := by rw [Heap.frame, Heap.frame, frames]
  refine ⟨⟨?_, ?_⟩, ?_, ?_, ?_, ?_⟩
  · rw [frames]
    exact holds.allocated
  · rw [sameFrame, holds.outermost]
  · rw [sameClass, holds.decl]
  · rw [sameClass, holds.superclass]
  · rw [sameClass, holds.scope]
  · rw [Heap.localBinding?, sameFrame]
    exact holds.bound

/-- Binding the name of the declared class in the outermost scope makes it known. -/
theorem ofBind (outermost : heap.HasOutermost) {statics : ObjectRef}
    (declared : heap.class cls = ⟨"A", none, nestedClass, statics, ⟨0⟩⟩) (isConstant : Bool) :
    (heap.bind ⟨0⟩ "A" { value := .class cls, isConstant }).HoldsNested cls := by
  have stored : (heap.bind ⟨0⟩ "A" { value := .class cls, isConstant }).class cls =
      ⟨"A", none, nestedClass, statics, ⟨0⟩⟩ := declared
  refine ⟨⟨?_, ?_⟩, by rw [stored], by rw [stored], by rw [stored], ?_⟩
  · simpa [Heap.bind] using outermost.allocated
  · rw [parent_frame_bind, outermost.outermost]
  · rw [localBinding?_bind outermost.allocated, if_pos ⟨rfl, rfl⟩]
    rfl

theorem allocFrame (holds : heap.HoldsNested cls) (frame : Frame) :
    (heap.allocFrame frame).2.HoldsNested cls := by
  have same : (heap.allocFrame frame).2.frame ⟨0⟩ = heap.frame ⟨0⟩ :=
    frame_of_frames_push rfl holds.allocated
  refine ⟨⟨?_, ?_⟩, holds.decl, holds.superclass, holds.scope, ?_⟩
  · simp [Heap.allocFrame]
  · rw [same, holds.outermost]
  · rw [Heap.localBinding?, same]
    exact holds.bound

theorem bind (holds : heap.HoldsNested cls) {scope : FrameRef} (inner : scope ≠ ⟨0⟩)
    (name : String) (binding : Binding) : (heap.bind scope name binding).HoldsNested cls := by
  have same : (heap.bind scope name binding).frame ⟨0⟩ = heap.frame ⟨0⟩ :=
    frame_bind_of_ne inner.symm heap name binding
  refine ⟨⟨?_, ?_⟩, holds.decl, holds.superclass, holds.scope, ?_⟩
  · simpa [Heap.bind] using holds.allocated
  · rw [same, holds.outermost]
  · rw [Heap.localBinding?, same]
    exact holds.bound

theorem lineage (holds : heap.HoldsNested cls) : (heap.lineage cls).reverse = [cls] := by
  simp [Heap.lineage, Heap.ancestorsFrom, holds.superclass]

/-- The outermost scope sees the class. -/
theorem sees (holds : heap.HoldsNested cls) : heap.SeesNested cls ⟨0⟩ := by
  simpa [Heap.SeesNested, Heap.lookup?, Heap.scopeChain, Heap.framesFrom, holds.outermost]
    using holds.bound

/-- A scope directly inside the outermost one sees the class unless it hides it. -/
theorem sees_inner (holds : heap.HoldsNested cls) {scope : FrameRef} (inner : scope ≠ ⟨0⟩)
    (parent : (heap.frame scope).parent = some ⟨0⟩)
    (unhidden : heap.localBinding? scope "A" = none) : heap.SeesNested cls scope := by
  obtain ⟨index⟩ := scope
  obtain ⟨index, rfl⟩ : ∃ less, index = less + 1 := by
    cases index with
    | zero => exact absurd rfl inner
    | succ less => exact ⟨less, rfl⟩
  simpa [Heap.SeesNested, Heap.lookup?, Heap.scopeChain, Heap.framesFrom, parent, unhidden,
    holds.outermost] using holds.bound

end HoldsNested

end Heap

namespace Evaluator

variable {cls : ClassRef}

/-- Every scope that the code of the class is evaluated in sees the class. -/
theorem receiverScope_nested (receiver : Value) :
    Run.Leads (·.heap.HoldsNested cls) (Run.receiverScope cls receiver)
      fun scope after => after.heap.HoldsNested cls ∧ after.heap.SeesNested cls scope := by
  intro machine holds
  let scope : FrameRef := ⟨machine.heap.frames.size⟩
  let entered := (machine.heap.allocFrame { parent := some (machine.heap.class cls).scope }).2
  let named := entered.bind scope receiverName { value := receiver }
  have inner : scope ≠ ⟨0⟩ := by
    intro same
    exact absurd (congrArg FrameRef.index same) (Nat.ne_of_gt holds.allocated)
  have size : scope.index < entered.frames.size := by simp [entered, scope, Heap.allocFrame]
  have sizeNamed : scope.index < named.frames.size := by simpa [named, Heap.bind] using size
  have fresh : entered.frame scope = { parent := some ⟨0⟩ } := by
    rw [← holds.scope]
    exact Heap.frame_allocFrame machine.heap _
  have kept : (named.bind scope ownerName { value := .class cls }).HoldsNested cls :=
    ((holds.allocFrame _).bind inner _ _).bind inner _ _
  refine ⟨scope, { machine with heap := named.bind scope ownerName { value := .class cls } },
    rfl, kept, kept.sees_inner inner ?_ ?_⟩
  · rw [Heap.parent_frame_bind, Heap.parent_frame_bind, fresh]
  · rw [Heap.localBinding?_bind sizeNamed, Heap.localBinding?_bind size, Heap.localBinding?, fresh]
    simp [ownerName, receiverName, Dict.get?]

/-- Making an instance asks for another one before it is done. -/
theorem instantiate_nested {ev : Evaluator}
    (asks : ∀ scope, Run.Exhausts
      (fun machine => machine.heap.HoldsNested cls ∧ machine.heap.SeesNested cls scope)
      (ev.eval newNested scope)) :
    Run.Exhausts (·.heap.HoldsNested cls) (ev.instantiate cls) := by
  let held : Machine → Prop := (·.heap.HoldsNested cls)
  have described : Run.Leads held (Run.read fun heap => heap.class cls) fun _ => held :=
    .read fun _ => id
  have noted : ∀ event, Run.Leads held (Run.note event) fun _ => held :=
    fun _ _ holds => ⟨_, _, rfl, holds⟩
  have made : Run.Leads held (Run.newObject {}) fun _ => held :=
    fun _ holds => ⟨_, _, rfl, holds.congr rfl rfl⟩
  have linked : ∀ object key property,
      Run.Leads held (Run.insertProperty object key property) fun _ => held :=
    fun _ _ _ _ holds => ⟨_, _, rfl, holds.congr rfl rfl⟩
  have ancestors : Run.Leads held (Run.read fun heap => (heap.lineage cls).reverse)
      fun baseFirst machine => baseFirst = [cls] ∧ held machine :=
    .read fun _ holds => ⟨holds.lineage, holds⟩
  have fields : Run.Leads held (Run.read fun heap => (heap.class cls).decl)
      fun decl machine => decl = nestedClass ∧ held machine :=
    .read fun _ holds => ⟨holds.decl, holds⟩
  refine .after described fun _ => .after (noted _) fun _ => .after made fun object => ?_
  refine .after (linked _ _ _) fun _ => .after ancestors fun baseFirst => ?_
  rintro machine ⟨rfl, holds⟩
  refine Run.Exhausts.first (.first (.after fields fun decl => ?_)) machine holds
  rintro machine ⟨rfl, holds⟩
  refine Run.Exhausts.first (.after (receiverScope_nested _) fun scope => ?_) machine holds
  exact .first (asks scope)

/-- However much fuel there is, making an instance uses it up. -/
theorem eval_newNested : ∀ (fuel : Nat) (scope : FrameRef), Run.Exhausts
    (fun machine => machine.heap.HoldsNested cls ∧ machine.heap.SeesNested cls scope)
    ((ofFuel fuel).eval newNested scope)
  | 0, _ => fun machine _ => ⟨machine, rfl⟩
  | 1, _ => fun machine _ => ⟨machine, rfl⟩
  | fuel + 2, scope => by
      have found : Run.Leads
          (fun machine => machine.heap.HoldsNested cls ∧ machine.heap.SeesNested cls scope)
          ((ofFuel (fuel + 1)).eval ⟨.name "A", {}⟩ scope)
          fun value machine => value = .class cls ∧ machine.heap.HoldsNested cls := by
        rintro machine ⟨holds, sees⟩
        obtain ⟨binding, bound, isClass⟩ := Option.map_eq_some_iff.mp sees
        refine ⟨binding.value, machine, ?_, isClass, holds⟩
        show Run.lookup scope "A" {} machine = _
        rw [Run.lookup_apply, bound]
      refine .after found fun value => ?_
      rintro machine ⟨rfl, holds⟩
      exact Run.Exhausts.first (instantiate_nested (eval_newNested (fuel + 1))) machine holds

/-- Declaring the class in the outermost scope makes it known there. -/
theorem declareClass_nested (ev : Evaluator) :
    Run.Leads (·.heap.HasOutermost) (ev.declareClass nestedClass ⟨0⟩ {})
      fun _ machine => ∃ cls, machine.heap.HoldsNested cls := by
  have made : Run.Leads (·.heap.HasOutermost) (Run.newObject {})
      fun _ machine => machine.heap.HasOutermost :=
    fun _ outermost => ⟨_, _, rfl, outermost.allocated, outermost.outermost⟩
  have stored : ∀ statics, Run.Leads (·.heap.HasOutermost)
      (Run.newClass ⟨"A", none, nestedClass, statics, ⟨0⟩⟩)
      fun cls machine => machine.heap.HasOutermost ∧
        machine.heap.class cls = ⟨"A", none, nestedClass, statics, ⟨0⟩⟩ := by
    intro statics machine outermost
    refine ⟨_, _, rfl, ⟨outermost.allocated, outermost.outermost⟩, ?_⟩
    simp [Heap.class]
  have named : ∀ statics cls, Run.Leads
      (fun machine => machine.heap.HasOutermost ∧
        machine.heap.class cls = ⟨"A", none, nestedClass, statics, ⟨0⟩⟩)
      (Run.bind ⟨0⟩ "A" { value := .class cls, isConstant := true })
      fun _ machine => machine.heap.HoldsNested cls := by
    rintro statics cls machine ⟨outermost, declared⟩
    exact ⟨_, _, rfl, .ofBind outermost declared true⟩
  have entered : ∀ statics cls, Run.Leads (·.heap.HoldsNested cls)
      (Run.receiverScope cls (.object statics))
      fun scope after => after.heap.HoldsNested cls ∧ after.heap.SeesNested cls scope :=
    fun statics _ => receiverScope_nested (.object statics)
  have parentless : Run.Leads (·.heap.HasOutermost) (Run.superclass nestedClass ⟨0⟩ {})
      fun superclass machine => superclass = none ∧ machine.heap.HasOutermost :=
    fun _ outermost => ⟨_, _, rfl, rfl, outermost⟩
  refine .bind parentless fun superclass => ?_
  rintro machine ⟨rfl, outermost⟩
  refine Run.Leads.bind made (fun statics => .bind (stored statics) fun cls => ?_) machine outermost
  refine .bind (named statics cls) fun _ => .bind (entered statics cls) fun scope => ?_
  exact fun machine holds => ⟨_, _, rfl, cls, holds.1⟩

/-- Executing the program uses up all fuel. -/
theorem execute_nesting (fuel : Nat) : Run.Exhausts
    (fun machine => machine.globals = ⟨0⟩ ∧ machine.heap.HasOutermost)
    ((ofFuel fuel).execute nesting) := by
  rintro machine ⟨globals, outermost⟩
  show ∃ after, (ofFuel fuel).executeIn machine.globals nesting machine = _
  rw [globals]
  cases fuel with
  | zero => exact ⟨machine, rfl⟩
  | succ fuel =>
      have declared : Run.Leads (·.heap.HasOutermost)
          ((ofFuel (fuel + 1)).exec ⟨.class nestedClass, {}⟩ ⟨0⟩)
          fun signal machine => signal = .proceed ∧ ∃ cls, machine.heap.HoldsNested cls :=
        .bind (declareClass_nested _) fun _ machine holds => ⟨_, machine, rfl, rfl, holds⟩
      refine Run.Exhausts.after declared (fun signal => ?_) machine outermost
      rintro machine ⟨rfl, cls, holds⟩
      exact Run.Exhausts.first (.first (eval_newNested fuel ⟨0⟩)) machine ⟨holds, holds.sees⟩

/-- The limit of open calls does not end a program that nests instances. -/
theorem nesting_never_ends (settings : Settings) (outputLimit : Option Nat)
    (threads : ThreadPolicy) (fuel : Nat) :
    ¬ ((ofFuel fuel).execute nesting).Ends (Machine.new settings outputLimit threads) := by
  intro ends
  have started := Machine.bare_evolves_new settings outputLimit threads
  have outermost : (Machine.new settings outputLimit threads).heap.HasOutermost := by
    have allocated : 0 < (Machine.bare settings outputLimit threads).heap.frames.size := Nat.one_pos
    refine ⟨Nat.lt_of_lt_of_le allocated (Heap.Path.size_frames_le started.path), ?_⟩
    exact Heap.Path.parent_frame started.path allocated
  obtain ⟨after, ran⟩ := execute_nesting fuel _ ⟨started.globals, outermost⟩
  exact ends after ran

/-- On a new machine, a program without unbounded loops ends exactly if constructions
and built-in calls do not open inside one another without end.  If they are rationed,
then every such program ends, in the same way as without a ration or refused like a
call at the limit. -/
theorem ends_iff_ration_suffices (settings : Settings) (outputLimit : Option Nat)
    (threads : ThreadPolicy) (program : List Stmt)
    (loopFree : ∀ stmt ∈ program, (Code.stmt stmt).Lacks Code.IsLoop) :
    (∀ ration, ∃ enough, ∀ fuel, enough ≤ fuel →
      ((rationed ration fuel ration).execute program).Ends
          (Machine.new settings outputLimit threads) ∧
      (((rationed ration fuel ration).execute program).Refused ration
          (Machine.new settings outputLimit threads) ∨
        (ofFuel fuel).execute program (Machine.new settings outputLimit threads) =
          (rationed ration fuel ration).execute program
            (Machine.new settings outputLimit threads))) ∧
    ((∃ fuel, ((ofFuel fuel).execute program).Ends (Machine.new settings outputLimit threads)) ↔
      ∃ ration enough, ∀ fuel, enough ≤ fuel →
        ¬ ((rationed ration fuel ration).execute program).Refused ration
          (Machine.new settings outputLimit threads)) := by
  have codeless := Machine.new_stores settings outputLimit threads
  generalize Machine.new settings outputLimit threads = machine at codeless ⊢
  have ends := fun ration => execute_rationed codeless loopFree ration ration
  refine ⟨fun ration => ⟨_, ends ration⟩, ?_, ?_⟩
  · rintro ⟨fuel, ends⟩
    obtain ⟨ration, accepted⟩ := exists_ration_of_ends ends
    exact ⟨ration, fuel, accepted⟩
  · rintro ⟨ration, enough, accepted⟩
    obtain ⟨ended, refused | same⟩ := ends ration _ (Nat.le_max_right enough _)
    · exact absurd refused (accepted _ (Nat.le_max_left enough _))
    · exact ⟨_, fun after run => ended after (same.symm.trans run)⟩

/-- The program that nests instances is refused under every ration. -/
theorem nesting_refused :
    (∀ stmt ∈ nesting, (Code.stmt stmt).Lacks Code.IsLoop) ∧
      ¬ ∃ ration enough, ∀ fuel, enough ≤ fuel →
        ¬ ((rationed ration fuel ration).execute nesting).Refused ration (Machine.new {} none) := by
  refine ⟨nesting_loopFree, fun accepted => ?_⟩
  have suffices_iff := ends_iff_ration_suffices {} none .lenient nesting nesting_loopFree
  rcases suffices_iff.2.mpr accepted with ⟨fuel, ends⟩
  exact nesting_never_ends {} none .lenient fuel ends

end Evaluator

end Hati
