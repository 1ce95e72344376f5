import Hati.Proofs.Conversions
import Hati.Proofs.Logic

namespace Hati

/-!
# Runs that a logic relates

The rules are put together from a few combinators, and each of them has its lemma here.
A lemma speaks of all machines that come later than a given one, the world; what follows
a run starts in the world that the run has come to, and may rely on its result there.
-/

/-- A lookup reads the heap and changes nothing. -/
theorem Run.lookup_apply (scope : FrameRef) (name : String) (span : Span) (machine : Machine) :
    Run.lookup scope name span machine =
      match machine.heap.lookup? scope name with
      | some binding => .ok binding.value machine
      | none => .error (.fault ⟨.undefinedVariable name, span⟩) machine := by
  simp only [Run.lookup, Bind.bind, EStateM.bind, Run.read]
  cases machine.heap.lookup? scope name <;> rfl

/-- The machine that a run leaves behind, however it ends. -/
def Run.leaves {α : Type} (run : Run α) (machine : Machine) : Machine :=
  match run machine with
  | .ok _ after => after
  | .error _ after => after

namespace Logic

variable {α β : Type}

/-! ## Two runs -/

/-- What a logic says of the ends of two runs from one machine. -/
def Concludes (logic : Logic) (before : Machine) (result : Machine → α → Prop) :
    EStateM.Result Halt Machine α → EStateM.Result Halt Machine α → Prop
  | .ok a after, other => logic.leads before after ∧ result after a ∧ other = .ok a after
  | .error halt after, other =>
    logic.leads before after ∧
      (logic.abandons halt ∨ logic.ends halt ∧ other = .error halt after)

/-- The logic holds of two runs from every machine that comes later than the world, and
what the first one gives has the property `result` where it ends. -/
def Relates (logic : Logic) (world : Machine) (first second : Run α)
    (result : Machine → α → Prop := fun _ _ => True) : Prop :=
  ∀ machine, logic.leads world machine →
    logic.Concludes machine result (first machine) (second machine)

/-- What has come to hold of a value still holds later. -/
def Lasting (logic : Logic) (good : Machine → α → Prop) : Prop :=
  ∀ machine after a, logic.leads machine after → good machine a → good after a

variable {logic : Logic} {world machine middle after : Machine} {first second : Run α}
  {result weaker : Machine → α → Prop} {last : Machine → β → Prop}

theorem lasting_held : logic.Lasting logic.Held :=
  fun _ _ _ onward held => held.later onward

theorem Concludes.mono {one other : EStateM.Result Halt Machine α}
    (concludes : logic.Concludes machine result one other)
    (implies : ∀ after a, result after a → weaker after a) :
    logic.Concludes machine weaker one other := by
  cases one with
  | ok a after => exact ⟨concludes.1, implies after a concludes.2.1, concludes.2.2⟩
  | error halt after => exact concludes

theorem Concludes.before {one other : EStateM.Result Halt Machine α}
    (onward : logic.leads machine middle) (concludes : logic.Concludes middle result one other) :
    logic.Concludes machine result one other := by
  cases one with
  | ok a after => exact ⟨logic.trans onward concludes.1, concludes.2⟩
  | error halt after => exact ⟨logic.trans onward concludes.1, concludes.2⟩

/-- Runs inside a changed context, one logic before the change is undone and one after. -/
theorem Concludes.afterwards {inner : Logic} {entered : Machine} {leave : Machine → Machine}
    (concludes : inner.Concludes entered result (first entered) (second entered))
    (leads : ∀ after, inner.leads entered after → logic.leads machine (leave after))
    (holds : ∀ after a, result after a → weaker (leave after) a)
    (ends : ∀ halt, inner.ends halt → logic.ends halt)
    (abandons : ∀ halt, inner.abandons halt → logic.abandons halt) :
    logic.Concludes machine weaker (Run.afterwards first leave entered)
      (Run.afterwards second leave entered) := by
  unfold Run.afterwards
  revert concludes
  cases first entered with
  | ok a after =>
      rintro ⟨onward, good, same⟩
      rw [same]
      exact ⟨leads after onward, holds after a good, rfl⟩
  | error halt after =>
      rintro ⟨onward, abandoned | ⟨ended, same⟩⟩
      · exact ⟨leads after onward, .inl (abandons halt abandoned)⟩
      · rw [same]
        exact ⟨leads after onward, .inr ⟨ends halt ended, rfl⟩⟩

namespace Relates

/-- However the first run ends, evaluation has come to the machine that it leaves behind. -/
theorem leaves (relates : logic.Relates world first second result)
    (onward : logic.leads world machine) : logic.leads machine (first.leaves machine) := by
  have concludes := relates machine onward
  unfold Run.leaves
  revert concludes
  cases first machine with
  | ok a after => exact And.left
  | error halt after => exact And.left

/-- A first run that fails is abandoned, or ends as the logic lets it. -/
theorem ends (relates : logic.Relates world first second result)
    (onward : logic.leads world machine) {halt : Halt}
    (ended : first machine = .error halt after) : logic.abandons halt ∨ logic.ends halt := by
  have concludes := relates machine onward
  rw [ended] at concludes
  exact concludes.2.imp_right And.left

/-- Where nothing is abandoned the two runs are the same. -/
theorem eq (relates : logic.Relates world first second result)
    (onward : logic.leads world machine) (compared : ∀ halt, ¬ logic.abandons halt) :
    second machine = first machine := by
  have concludes := relates machine onward
  revert concludes
  cases first machine with
  | ok a after => exact fun concludes => concludes.2.2
  | error halt after => exact fun concludes => (concludes.2.resolve_left (compared halt)).2

/-- Another run that does what the second one does may take its place. -/
theorem congr {third : Run α} (relates : logic.Relates world first second result)
    (same : ∀ machine, logic.leads world machine → third machine = second machine) :
    logic.Relates world first third result := by
  intro machine onward
  rw [same machine onward]
  exact relates machine onward

/-! ## Putting runs together -/

theorem mono (relates : logic.Relates world first second result)
    (implies : ∀ after a, result after a → weaker after a) :
    logic.Relates world first second weaker :=
  fun machine onward => (relates machine onward).mono implies

/-- The result may be anything. -/
theorem forget (relates : logic.Relates world first second result) :
    logic.Relates world first second :=
  relates.mono fun _ _ _ => trivial

theorem later (relates : logic.Relates world first second result)
    (onward : logic.leads world machine) : logic.Relates machine first second result :=
  fun after further => relates after (logic.trans onward further)

/-- It is enough to relate the runs from each later machine on. -/
theorem ofLater (relates : ∀ machine, logic.leads world machine →
    logic.Relates machine first second result) : logic.Relates world first second result :=
  fun machine onward => relates machine onward machine (logic.self onward)

theorem pure {a : α} (holds : ∀ machine, logic.leads world machine → result machine a) :
    logic.Relates world (Pure.pure a) (Pure.pure a) result :=
  fun machine onward => ⟨logic.self onward, holds machine onward, rfl⟩

/-- The plain end of a rule. -/
theorem done {a : α} : logic.Relates world (Pure.pure a) (Pure.pure a) :=
  pure fun _ _ => trivial

theorem value {value : Value} (held : logic.Held world value) :
    logic.Relates world (Pure.pure value) (Pure.pure value) logic.Held :=
  pure fun _ onward => held.later onward

theorem bind {next other : α → Run β} (relates : logic.Relates world first second result)
    (rest : ∀ after a, logic.leads world after → result after a →
      logic.Relates after (next a) (other a) last) :
    logic.Relates world (first >>= next) (second >>= other) last := by
  intro machine onward
  have concludes := relates machine onward
  show logic.Concludes machine last (EStateM.bind first next machine)
    (EStateM.bind second other machine)
  unfold EStateM.bind
  revert concludes
  cases first machine with
  | ok a after =>
      rintro ⟨further, good, same⟩
      rw [same]
      have rested := rest after a (logic.trans onward further) good
      exact (rested after (logic.self further)).before further
  | error halt after =>
      rintro ⟨further, abandoned | ⟨ended, same⟩⟩
      · exact ⟨further, .inl abandoned⟩
      · rw [same]
        exact ⟨further, .inr ⟨ended, rfl⟩⟩

/-- Sequencing when nothing is asked of the first result. -/
theorem andThen {next other : α → Run β} (relates : logic.Relates world first second result)
    (rest : ∀ a, logic.Relates world (next a) (other a) last) :
    logic.Relates world (first >>= next) (second >>= other) last :=
  relates.bind fun _ a onward _ => (rest a).later onward

/-! ## Runs that end early -/

theorem halt {halt : Halt} (ended : logic.ends halt) :
    logic.Relates world (throw halt : Run α) (throw halt) result :=
  fun _ onward => ⟨logic.self onward, .inr ⟨ended, rfl⟩⟩

theorem exit {code : Int} :
    logic.Relates world (throw (.exit code) : Run α) (throw (.exit code)) result :=
  halt (logic.ends_exit code)

theorem exhausted (exhausts : logic.ends .exhausted) :
    logic.Relates world (Run.exhausted : Run α) Run.exhausted result :=
  halt exhausts

/-- Against an abandoned first run the second one may do anything. -/
theorem abandoned (abandons : logic.abandons .exhausted) :
    logic.Relates world Run.exhausted second result :=
  fun _ onward => ⟨logic.self onward, .inl abandons⟩

section Placed

variable {span : Span} (here : logic.place span)
include here

/-- Any failure but that of a jump may happen anywhere. -/
theorem fail {cause : Cause} (ordinary : cause.isStrayJump = false) :
    logic.Relates world (Run.fail cause span : Run α) (Run.fail cause span) result :=
  halt (logic.ends_fault cause span ordinary here)

theorem lift {conversion : Except Cause α} {holds : α → Prop}
    (converts : Converts conversion holds) :
    logic.Relates world (Run.lift span conversion) (Run.lift span conversion) fun _ => holds := by
  cases conversion with
  | ok a => exact pure fun _ _ => converts.1 a rfl
  | error cause => exact fail here (converts.2 cause rfl)

theorem orAt (relates : logic.Relates world first second result) :
    logic.Relates world (Run.orAt span first) (Run.orAt span second) result := by
  intro machine onward
  have concludes := relates machine onward
  unfold Run.orAt
  revert concludes
  cases first machine with
  | ok a after =>
      rintro ⟨further, good, same⟩
      rw [same]
      exact ⟨further, good, rfl⟩
  | error halt after =>
      rintro ⟨further, abandoned | ⟨ended, same⟩⟩
      · cases halt with
        | fault fault => exact ⟨further, .inl (logic.abandons_orAt fault span abandoned)⟩
        | exit code => exact ⟨further, .inl abandoned⟩
        | exhausted => exact ⟨further, .inl abandoned⟩
      · rw [same]
        cases halt with
        | fault fault => exact ⟨further, .inr ⟨logic.ends_orAt fault span ended here, rfl⟩⟩
        | exit code => exact ⟨further, .inr ⟨ended, rfl⟩⟩
        | exhausted => exact ⟨further, .inr ⟨ended, rfl⟩⟩

end Placed

/-! ## Reading -/

theorem read {f : Heap → α} (holds : ∀ machine, logic.leads world machine →
    result machine (f machine.heap)) : logic.Relates world (Run.read f) (Run.read f) result :=
  fun machine onward => ⟨logic.self onward, holds machine onward, rfl⟩

theorem reads {f : Heap → α} : logic.Relates world (Run.read f) (Run.read f) :=
  read fun _ _ => trivial

/-- What follows a reading may rely on where the value was read. -/
theorem readThen {f : Heap → α} {next other : α → Run β}
    (rest : ∀ machine, logic.leads world machine →
      logic.Relates machine (next (f machine.heap)) (other (f machine.heap)) last) :
    logic.Relates world (Run.read f >>= next) (Run.read f >>= other) last :=
  fun machine onward => rest machine onward machine (logic.self onward)

theorem getThen {next other : Machine → Run β}
    (rest : ∀ machine, logic.leads world machine →
      logic.Relates machine (next machine) (other machine) last) :
    logic.Relates world ((get : Run Machine) >>= next) ((get : Run Machine) >>= other) last :=
  fun machine onward => rest machine onward machine (logic.self onward)

theorem text {value : Value} : logic.Relates world (Run.text value) (Run.text value) :=
  reads

theorem isTrue {value : Value} : logic.Relates world (Run.isTrue value) (Run.isTrue value) :=
  reads

theorem items {ref : ListRef} :
    logic.Relates world (Run.items ref) (Run.items ref)
      fun machine items => logic.HeldItems machine items.toList :=
  read fun _ onward => held_list (logic.self onward) ref

/-- What is found under a name is held, and the name is bound. -/
theorem lookup {scope : FrameRef} {name : String} {span : Span} (here : logic.place span) :
    logic.Relates world (Run.lookup scope name span) (Run.lookup scope name span)
      fun machine value => logic.Held machine value ∧ machine.heap.isBound scope name = true := by
  intro machine onward
  rw [Run.lookup_apply]
  cases found : machine.heap.lookup? scope name with
  | some binding =>
      have valid := logic.self onward
      exact ⟨valid, ⟨held_lookup valid found, Heap.isBound_of_lookup? found⟩, rfl⟩
  | none => exact fail here rfl machine onward

/-! ## Changing the heap -/

theorem modifyHeap {f : Heap → Heap}
    (edits : ∀ machine, logic.leads world machine →
      Edit logic.toTerms machine.heap (f machine.heap)) :
    logic.Relates world (Run.modifyHeap f) (Run.modifyHeap f) :=
  fun machine onward =>
    ⟨logic.moves (logic.self onward) (.edit (edits machine onward)), trivial, rfl⟩

theorem alloc {f : Heap → α × Heap}
    (edits : ∀ machine, logic.leads world machine →
      Edit logic.toTerms machine.heap (f machine.heap).2)
    (holds : ∀ machine, logic.leads world machine →
      result { machine with heap := (f machine.heap).2 } (f machine.heap).1) :
    logic.Relates world (Run.alloc f) (Run.alloc f) result :=
  fun machine onward =>
    ⟨logic.moves (logic.self onward) (.edit (edits machine onward)), holds machine onward, rfl⟩

/-- A new scope inside one in which statements are executed is another one. -/
theorem newScope {parent : FrameRef} (executes : logic.executes world parent) :
    logic.Relates world (Run.newScope parent) (Run.newScope parent) logic.Open := by
  apply alloc
  · intro machine onward
    have evaluates := logic.evaluates_of_executes (logic.executes_later onward executes)
    exact .enterCall parent none (logic.inside_of_evaluates · evaluates) nofun
  · intro machine onward
    have valid := logic.self onward
    refine ⟨logic.opens valid (logic.executes_later onward executes), ?_⟩
    exact fun name binds => logic.declares_fresh name valid binds

theorem declare {scope : FrameRef} {name : String} {binding : Binding}
    (permitted : logic.declares scope name) (held : logic.Held world binding.value) :
    logic.Relates world (Run.bind scope name binding) (Run.bind scope name binding) :=
  modifyHeap fun _ onward => .declare scope name binding permitted (held.later onward)

/-- An assignment goes to a variable that is there, or declares the name. -/
theorem assign {scope : FrameRef} {name : String} {value : Value} {span : Span}
    (here : logic.place span) (assigns : logic.assigns name)
    (settles : logic.Settles world scope name) (held : logic.Held world value) :
    logic.Relates world (Run.assign scope name value span) (Run.assign scope name value span) := by
  intro machine onward
  have valid := logic.self onward
  -- The frame is chosen in the very heap that is written to.
  show logic.Concludes machine _
    (EStateM.bind (Run.lift span (machine.heap.assignmentFrame scope name)) _ machine)
    (EStateM.bind (Run.lift span (machine.heap.assignmentFrame scope name)) _ machine)
  cases chosen : machine.heap.assignmentFrame scope name with
  | error cause =>
      have converts := Converts.assignmentFrame machine.heap scope name
      exact fail here (converts.2 cause chosen) machine onward
  | ok owner =>
      refine ⟨logic.moves valid (.edit ?_), trivial, rfl⟩
      rcases Heap.assignmentFrame_cases chosen with ⟨old, bound, changeable⟩ | ⟨rfl, unbound⟩
      · exact .assign owner name value old bound changeable assigns (held.later onward)
      · exact .declare owner name { value } (settles machine onward unbound) (held.later onward)

theorem newList {elements : Array Value} (held : logic.HeldItems world elements.toList) :
    logic.Relates world (Run.newList elements) (Run.newList elements) logic.Held := by
  have allocated : logic.Relates world (Run.alloc fun heap => heap.allocList elements)
      (Run.alloc fun heap => heap.allocList elements) fun machine ref =>
        logic.Held machine (.list ref) := by
    apply alloc
    · exact fun _ onward => .newList elements fun tracks item member =>
        (held item member).later onward tracks
    · exact fun machine _ _ => machine.heap.holds_allocList elements
  exact allocated.bind fun _ _ _ fresh => value fresh

theorem modifyList {ref : ListRef} {change : Array Value → Array Value}
    (held : ∀ machine, logic.leads world machine →
      logic.HeldItems machine (change (machine.heap.list ref)).toList) :
    logic.Relates world (Run.modifyHeap fun heap => heap.modifyList ref change)
      (Run.modifyHeap fun heap => heap.modifyList ref change) :=
  modifyHeap fun machine onward =>
    .modifyList ref change fun tracks item member => held machine onward item member tracks

theorem setList {ref : ListRef} {elements : Array Value}
    (held : logic.HeldItems world elements.toList) :
    logic.Relates world (Run.setList ref elements) (Run.setList ref elements) :=
  modifyList fun _ onward => held.later onward

/-- A new object may be given properties directly. -/
theorem newObject {object : Object} (distinct : object.properties.keys.Nodup)
    (held : ∀ entry ∈ object.properties.entries, logic.Held world entry.2.value)
    (unlinked : logic.tracks → object.IsUnlinked) :
    logic.Relates world (Run.newObject object) (Run.newObject object)
      fun machine ref => logic.owns ref ∧ logic.Held machine (.object ref) := by
  apply alloc
  · intro machine onward
    refine .newObject object distinct (fun tracks entry member => ?_) unlinked
    exact (held entry member).later onward tracks
  · intro machine onward
    exact ⟨logic.owns_fresh (logic.self onward), fun _ => machine.heap.holds_allocObject object⟩

theorem newEmptyObject :
    logic.Relates world (Run.newObject {}) (Run.newObject {})
      fun machine ref => logic.owns ref ∧ logic.Held machine (.object ref) :=
  newObject List.nodup_nil nofun fun _ _ => nofun

theorem insertProperty {ref : ObjectRef} {key : String} {property : Property}
    (owned : logic.owns ref) (held : logic.Held world property.value) :
    logic.Relates world (Run.insertProperty ref key property)
      (Run.insertProperty ref key property) :=
  modifyHeap fun _ onward => .insert ref key property owned (held.later onward)

theorem freeze {ref : ObjectRef} : logic.Relates world (Run.freeze ref) (Run.freeze ref) :=
  modifyHeap fun _ _ => .freeze ref

theorem clearObject {ref : ObjectRef} (permitted : logic.clears) :
    logic.Relates world (Run.clearObject ref) (Run.clearObject ref) :=
  modifyHeap fun _ _ => .clear ref permitted

/-- A new function is held, whatever it needs of the heap. -/
private theorem newFunction {function : Function}
    (edits : ∀ machine, logic.leads world machine →
      Edit logic.toTerms machine.heap (machine.heap.allocFunction function).2) :
    logic.Relates world (Run.newFunction function) (Run.newFunction function) logic.Held := by
  have allocated : logic.Relates world (Run.alloc fun heap => heap.allocFunction function)
      (Run.alloc fun heap => heap.allocFunction function) fun machine ref =>
        logic.Held machine (.function ref) :=
    alloc edits fun machine _ _ => machine.heap.holds_allocFunction function
  exact allocated.bind fun _ _ _ fresh => value fresh

theorem newBuiltin {builtin : Builtin}
    (held : ∀ method ref, builtin = .list method ref → logic.Held world (.list ref)) :
    logic.Relates world (Run.newFunction (.ofBuiltin builtin))
      (Run.newFunction (.ofBuiltin builtin)) logic.Held := by
  refine newFunction fun machine onward => .newBuiltin builtin fun tracks => ?_
  cases builtin with
  | list method ref => exact (held method ref rfl).later onward tracks
  | _ => trivial

theorem newClosure {decl : FunctionDecl} {scope : FrameRef} (known : logic.known (.function decl))
    (inside : logic.Inside world scope) :
    logic.Relates world (Run.newFunction (.ofDecl decl scope))
      (Run.newFunction (.ofDecl decl scope)) logic.Held :=
  newFunction fun _ onward => .newClosure decl scope known (inside.later onward)

/-! ## Output, journal and queue -/

theorem write {text : String} {span : Span} (here : logic.place span) :
    logic.Relates world (Run.write text span) (Run.write text span) := by
  intro machine onward
  unfold Run.write
  split
  · exact ⟨logic.moves (logic.self onward) (.print _), trivial, rfl⟩
  · exact fail here rfl machine onward

/-- All events but two are noted by themselves. -/
theorem note {event : Event} (harmless : event.level ≠ .warn := by exact fun same => nomatch same)
    (otherwise : event.constructed? = none := by rfl) :
    logic.Relates world (Run.note event) (Run.note event) :=
  fun _ onward => ⟨logic.moves (logic.self onward) (.note event harmless otherwise), trivial, rfl⟩

theorem schedule {f : Scheduler Value → α × Scheduler Value}
    (held : ∀ machine, logic.leads world machine → logic.tracks →
      Machine.HoldsTasks machine.heap (f machine.scheduler).2.tasks)
    (holds : ∀ machine, logic.leads world machine →
      result { machine with scheduler := (f machine.scheduler).2 } (f machine.scheduler).1) :
    logic.Relates world (Run.schedule f) (Run.schedule f) result :=
  fun machine onward =>
    ⟨logic.moves (logic.self onward) (.schedule _ (held machine onward)), holds machine onward, rfl⟩

theorem schedules {f : Scheduler Value → α × Scheduler Value}
    (held : ∀ machine, logic.leads world machine → logic.tracks →
      Machine.HoldsTasks machine.heap (f machine.scheduler).2.tasks) :
    logic.Relates world (Run.schedule f) (Run.schedule f) :=
  schedule held fun _ _ => trivial

/-! ## Lists -/

variable {ι : Type}

/-- What is given for the items is as good as what is given for each. -/
theorem mapM {f g : ι → Run α} (lasting : logic.Lasting result) : ∀ {items : List ι},
    (∀ item ∈ items, logic.Relates world (f item) (g item) result) →
    logic.Relates world (items.mapM f) (items.mapM g)
      fun machine results => ∀ a ∈ results, result machine a
  | [], _ => by
      rw [List.mapM_nil, List.mapM_nil]
      exact pure fun _ _ _ member => by cases member
  | item :: items, each => by
      rw [List.mapM_cons, List.mapM_cons]
      refine (each item List.mem_cons_self).bind fun middle a onward good => ?_
      have others := mapM lasting fun other member => each other (List.mem_cons_of_mem item member)
      refine (others.later onward).bind fun after rest further goodRest => ?_
      refine pure fun final beyond b member => ?_
      rcases List.mem_cons.mp member with rfl | member
      · exact lasting _ _ _ (logic.trans further beyond) good
      · exact lasting _ _ _ beyond (goodRest b member)

theorem forM {f g : ι → Run PUnit} : ∀ {items : List ι},
    (∀ item ∈ items, logic.Relates world (f item) (g item)) →
    logic.Relates world (items.forM f) (items.forM g)
  | [], _ => done
  | item :: _, each =>
      (each item List.mem_cons_self).andThen fun _ =>
        forM fun other member => each other (List.mem_cons_of_mem item member)

/-- What holds of the accumulator at the start is kept by every round. -/
theorem foldlM {f g : α → ι → Run α} (lasting : logic.Lasting result) :
    ∀ {items : List ι} {world : Machine} {start : α}, result world start →
      (∀ item ∈ items, ∀ machine a, logic.leads world machine → result machine a →
        logic.Relates machine (f a item) (g a item) result) →
      logic.Relates world (items.foldlM f start) (items.foldlM g start) result
  | [], _, _, good, _ => pure fun _ onward => lasting _ _ _ onward good
  | item :: items, world, start, good, each => by
      rw [List.foldlM_cons, List.foldlM_cons]
      have round : logic.Relates world (f start item) (g start item) result :=
        ofLater fun machine onward =>
          each item List.mem_cons_self machine start onward (lasting _ _ _ onward good)
      refine round.bind fun middle a onward kept => ?_
      exact foldlM lasting kept fun other member machine b further =>
        each other (List.mem_cons_of_mem item member) machine b (logic.trans onward further)

section Filters

variable {f g : ι → Run Bool}

private theorem filterAuxM : ∀ (items kept : List ι),
    (∀ item ∈ items, logic.Relates world (f item) (g item)) →
    logic.Relates world (items.filterAuxM f kept) (items.filterAuxM g kept)
      fun _ picked => ∀ item ∈ picked, item ∈ items ∨ item ∈ kept
  | [], kept, _ => pure fun _ _ _ member => .inr member
  | item :: items, kept, each => by
      refine (each item List.mem_cons_self).andThen fun answer => ?_
      have rest := filterAuxM items (cond answer (item :: kept) kept) fun other member =>
        each other (List.mem_cons_of_mem item member)
      refine rest.mono fun _ picked within other member => ?_
      rcases within other member with inItems | inKept
      · exact .inl (List.mem_cons_of_mem item inItems)
      · cases answer with
        | true => exact (List.mem_cons.mp inKept).elim (fun same => .inl (by simp [same])) .inr
        | false => exact .inr inKept

variable {items : List ι}

theorem filterM (each : ∀ item ∈ items, logic.Relates world (f item) (g item)) :
    logic.Relates world (items.filterM f) (items.filterM g)
      fun _ picked => ∀ item ∈ picked, item ∈ items := by
  refine (filterAuxM items [] each).bind fun _ picked _ within => ?_
  refine pure fun _ _ item member => ?_
  exact (within item (List.mem_reverse.mp member)).resolve_right List.not_mem_nil

theorem findM? (each : ∀ item ∈ items, logic.Relates world (f item) (g item)) :
    logic.Relates world (items.findM? f) (items.findM? g)
      fun _ found => ∀ item ∈ found, item ∈ items := by
  induction items with
  | nil => exact pure fun _ _ => nofun
  | cons item items ih =>
      refine (each item List.mem_cons_self).andThen fun answer => ?_
      cases answer with
      | true =>
          refine pure fun _ _ other found => ?_
          cases found
          exact List.mem_cons_self
      | false =>
          have rest := ih fun other member => each other (List.mem_cons_of_mem item member)
          exact rest.mono fun _ _ within other found =>
            List.mem_cons_of_mem item (within other found)

theorem anyM (each : ∀ item ∈ items, logic.Relates world (f item) (g item)) :
    logic.Relates world (items.anyM f) (items.anyM g) := by
  induction items with
  | nil => exact done
  | cons item items ih =>
      refine (each item List.mem_cons_self).andThen fun answer => ?_
      cases answer with
      | true => exact done
      | false => exact ih fun other member => each other (List.mem_cons_of_mem item member)

theorem allM (each : ∀ item ∈ items, logic.Relates world (f item) (g item)) :
    logic.Relates world (items.allM f) (items.allM g) := by
  induction items with
  | nil => exact done
  | cons item items ih =>
      refine (each item List.mem_cons_self).andThen fun answer => ?_
      cases answer with
      | true => exact ih fun other member => each other (List.mem_cons_of_mem item member)
      | false => exact done

end Filters

end Relates

/-! ## Evaluators -/

/-- How a statement may end: it returns a value that is held, and jumps only as its text
lets it. -/
structure Signals (logic : Logic) (jumps : Jump → Prop) (machine : Machine) (signal : Signal) :
    Prop where
  held : ∀ value, signal = .returned value → logic.Held machine value
  jumps : signal.JumpsBy jumps

/-- The logic relates what two evaluators do when they are asked the same. -/
structure Covers (logic : Logic) (asked : Code → Prop) (ev other : Evaluator) : Prop where
  eval : ∀ {world expr scope}, asked (.expr expr) → logic.evaluates world scope →
    logic.Relates world (ev.eval expr scope) (other.eval expr scope) logic.Held
  exec : ∀ {world stmt scope}, asked (.stmt stmt) → logic.Admits world stmt scope →
    logic.Relates world (ev.exec stmt scope) (other.exec stmt scope)
      (logic.Signals fun jump => stmt.Strays jump)
  call : ∀ {world callee receiver args scope span}, logic.place span →
    logic.Held world callee → (∀ value ∈ receiver, logic.Held world value) →
    logic.HeldItems world args →
    logic.Relates world (ev.call callee receiver args scope span)
      (other.call callee receiver args scope span) logic.Held
  known : ∀ code, asked code → logic.known (.code code)
  parts : ∀ whole part, asked whole → part ∈ whole.parts → asked part

end Logic

end Hati
