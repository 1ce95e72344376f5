import Hati.Proofs.Allocation
import Hati.Proofs.Passage
import Hati.Proofs.ScopeIntegrity

namespace Hati

/-!
# Destructuring that fails

A pattern that is malformed, or meant for values of another type, is refused before anything
is declared.  After that only an object pattern can fail, because its keys are read through
the property protocol: a key may be private, and a getter may fail.

Each name of an object pattern is declared as soon as its key has been read.  When reading a
key fails, the names in front of it have been declared and stay so, and the names from there
on are as they were.  Getters run in between, and like all code they can assign to variables
that are there.
-/

namespace Pattern

/-- Why a pattern takes nothing from a value: it is malformed, or it is meant for values of
another type. -/
def refusal? (pattern : Pattern) (value : Value) : Option Cause :=
  match pattern.defect? with
  | some cause => some cause
  | none =>
    match pattern, value with
    | .name _, _ | .list _, .list _ | .object _, .object _ => none
    | .list _, other => some (.notAListPattern other.type)
    | .object _, other => some (.notAnObjectPattern other.type)

end Pattern

/-! ## Lists -/

/-- Nothing can fail while the parts of a list are bound. -/
theorem Run.bindSlots_ok (scope : FrameRef) (isConstant : Bool) (slots : List ListSlot) :
    ∀ (items : List Value) (machine : Machine),
      ∃ after, bindSlots scope isConstant slots items machine = .ok () after := by
  induction slots with
  | nil => exact fun _ machine => ⟨machine, rfl⟩
  | cons slot slots ih =>
      intro items machine
      cases slot with
      | hole => exact ih _ machine
      | bind name => exact ih _ _
      | rest name => exact ih _ _

namespace Evaluator

variable {ev : Evaluator} {ref : ObjectRef} {scope : FrameRef} {span : Span} {isConstant : Bool}
  {before after : Machine}

/-! ## One field -/

/-- Read the key of a field and declare its name. -/
def declareField (ev : Evaluator) (scope : FrameRef) (isConstant : Bool) (ref : ObjectRef)
    (span : Span) (field : String × String) : Run Value := do
  let value ← ev.readProperty ref field.1 scope span
  Run.bind scope field.2 { value, isConstant }
  pure value

theorem bindFields_eq (fields : List (String × String)) :
    ev.bindFields scope isConstant ref span fields =
      (fun _ => ()) <$> Run.through (fun _ => false)
        (ev.declareField scope isConstant ref span) fields := by
  induction fields with
  | nil => rfl
  | cons field fields ih =>
      rw [bindFields, ih]
      simp [Run.through, declareField]

/-- Only reading the key can fail. -/
theorem declareField_error {field : String × String} {halt : Halt}
    (failed : ev.declareField scope isConstant ref span field before = .error halt after) :
    ev.readProperty ref field.1 scope span before = .error halt after := by
  cases reads : ev.readProperty ref field.1 scope span before with
  | error stop middle =>
      rw [declareField, Run.bind_of_error reads] at failed
      exact failed
  | ok value middle =>
      rw [declareField, Run.bind_of_ok reads] at failed
      cases failed

theorem declareField_ok {field : String × String} {value : Value}
    (declared : ev.declareField scope isConstant ref span field before = .ok value after) :
    ∃ middle, ev.readProperty ref field.1 scope span before = .ok value middle ∧
      after = { middle with heap := middle.heap.bind scope field.2 { value, isConstant } } := by
  obtain ⟨read, middle, reads, rest⟩ := Run.bind_eq_ok.mp declared
  cases rest
  exact ⟨middle, reads, rfl⟩

end Evaluator

/-! ## What the names hold -/

namespace Binding

/-- What a name holds once names were declared with these values, one after the other, and
nothing else was written: what it was given last, or else what it held before. -/
def declaring (isConstant : Bool) (name : String) :
    List (String × Value) → Option Binding → Option Binding
  | [], held => held
  | (target, value) :: given, held =>
    declaring isConstant name given (if target = name then some { value, isConstant } else held)

variable {isConstant : Bool} {name : String}

theorem declaring_of_not_mem : ∀ {given : List (String × Value)} {held : Option Binding},
    name ∉ given.map Prod.fst → declaring isConstant name given held = held
  | [], _, _ => rfl
  | (target, _) :: given, held, absent => by
      rw [List.map_cons, List.mem_cons, not_or] at absent
      rw [declaring, if_neg (Ne.symm absent.1)]
      exact declaring_of_not_mem absent.2

theorem Kept.declaring : ∀ (given : List (String × Value)) {held later : Option Binding},
    Kept held later →
      Kept (Binding.declaring isConstant name given held)
        (Binding.declaring isConstant name given later)
  | [], _, _, kept => kept
  | (target, value) :: given, held, later, kept => by
      refine Kept.declaring given ?_
      by_cases same : target = name
      · rw [if_pos same, if_pos same]
        exact .refl _
      · rw [if_neg same, if_neg same]
        exact kept

end Binding

theorem Run.leaves_of_ok {α : Type} {run : Run α} {value : α} {before after : Machine}
    (ends : run before = .ok value after) : run.leaves before = after := by
  rw [Run.leaves, ends]

theorem Run.leaves_of_error {α : Type} {run : Run α} {halt : Halt} {before after : Machine}
    (ends : run before = .error halt after) : run.leaves before = after := by
  rw [Run.leaves, ends]

namespace Heap

/-- Declare names with values in a frame, one after the other. -/
def declareAll (heap : Heap) (scope : FrameRef) (isConstant : Bool) :
    List (String × Value) → Heap
  | [] => heap
  | (name, value) :: given =>
    declareAll (heap.bind scope name { value, isConstant }) scope isConstant given

theorem localBinding?_declareAll {scope : FrameRef} {isConstant : Bool} {name : String} :
    ∀ (given : List (String × Value)) {heap : Heap}, heap.HasFrame scope →
      (heap.declareAll scope isConstant given).localBinding? scope name =
        Binding.declaring isConstant name given (heap.localBinding? scope name)
  | [], _, _ => rfl
  | (target, value) :: given, heap, inside => by
      have still : (heap.bind scope target { value, isConstant }).HasFrame scope :=
        Nat.lt_of_lt_of_eq inside Array.size_modify.symm
      rw [declareAll, localBinding?_declareAll given still, localBinding?_bind inside,
        Binding.declaring]
      congr 1
      by_cases same : target = name
      · rw [if_pos same, if_pos ⟨rfl, same.symm⟩]
      · rw [if_neg same, if_neg fun both => same both.2.symm]

/-- The property under the key is computed by code whenever it is read. -/
def isComputed (heap : Heap) (ref : ObjectRef) (key : String) : Bool :=
  ((heap.object ref).properties.get? key).any Property.isGetter

theorem isComputed_declareAll {scope : FrameRef} {isConstant : Bool} {ref : ObjectRef}
    {key : String} : ∀ (given : List (String × Value)) {heap : Heap},
      (heap.declareAll scope isConstant given).isComputed ref key = heap.isComputed ref key
  | [], _ => rfl
  | _ :: given, _ => isComputed_declareAll given

end Heap

namespace Evaluator

section Getters

variable {fuel : Nat} {ref : ObjectRef} {key : String} {scope reader : FrameRef} {span : Span}
  {isConstant : Bool} {before after : Machine}

/-- Reading a property declares nothing in a frame that is there, whatever code it runs. -/
theorem readProperty_keeps (inside : before.heap.HasFrame scope)
    (leaves : ((ofFuel fuel).readProperty ref key reader span).leaves before = after) :
    after.heap.HasFrame scope ∧
      ∀ name, Binding.Kept (before.heap.localBinding? scope name)
        (after.heap.localBinding? scope name) := by
  have covers := Law.declaring_covers before.heap reader [] fuel
  have evolves : before.Evolves (Law.declaring before.heap reader []).permit
      (((ofFuel fuel).readProperty ref key reader span).leaves before) :=
    Law.evolves (covers.readProperty trivial Law.held) ⟨.refl, trivial⟩
  rw [leaves] at evolves
  refine ⟨Nat.lt_of_lt_of_le inside (Heap.Path.size_frames_le evolves.path), fun name => ?_⟩
  refine Heap.Path.kept evolves.path inside ?_
  rintro (fresh | ⟨-, declared⟩)
  · exact absurd inside (Nat.not_lt_of_le fresh)
  · cases declared

theorem declareField_keeps (inside : before.heap.HasFrame scope) {field : String × String}
    {value : Value}
    (declared : (ofFuel fuel).declareField scope isConstant ref span field before =
      .ok value after) :
    after.heap.HasFrame scope ∧
      ∀ name, Binding.Kept
        (Binding.declaring isConstant name [(field.2, value)]
          (before.heap.localBinding? scope name))
        (after.heap.localBinding? scope name) := by
  obtain ⟨middle, reads, rfl⟩ := declareField_ok declared
  obtain ⟨held, kept⟩ := readProperty_keeps inside (Run.leaves_of_ok reads)
  refine ⟨by simpa [Heap.HasFrame, Heap.bind] using held, fun name => ?_⟩
  rw [Heap.localBinding?_bind held]
  by_cases same : field.2 = name
  · rw [if_pos ⟨rfl, same.symm⟩, Binding.declaring, if_pos same]
    exact .refl _
  · rw [if_neg fun both => same both.2.symm, Binding.declaring, if_neg same]
    exact kept name

/-- The names that were declared hold what was read, and the others what they held before, up to
what getters have assigned to them. -/
theorem each_declareField_keeps {fields : List (String × String)} {values : List Value}
    (inside : before.heap.HasFrame scope)
    (each : Run.Each ((ofFuel fuel).declareField scope isConstant ref span) fields before values
      after) :
    after.heap.HasFrame scope ∧
      ∀ name, Binding.Kept
        (Binding.declaring isConstant name ((fields.map Prod.snd).zip values)
          (before.heap.localBinding? scope name))
        (after.heap.localBinding? scope name) := by
  induction each with
  | none machine => exact ⟨inside, fun name => .refl _⟩
  | next declared rest ih =>
      obtain ⟨held, first⟩ := declareField_keeps inside declared
      obtain ⟨stays, others⟩ := ih held
      exact ⟨stays, fun name => (first name |>.declaring _).trans (others name)⟩

end Getters

/-! ## Without getters -/

section Stored

variable {ev : Evaluator} {ref : ObjectRef} {scope : FrameRef} {span : Span} {isConstant : Bool}
  {before after : Machine}

theorem readProperty_apply (ref : ObjectRef) (key : String) (scope : FrameRef) (span : Span)
    (machine : Machine) :
    ev.readProperty ref key scope span machine =
      match machine.heap.readableProperty scope ref key with
      | .ok none => .ok .null machine
      | .ok (some property) =>
        if property.isGetter then ev.call property.value (some (.object ref)) [] scope span machine
        else .ok property.value machine
      | .error cause => .error (.fault ⟨cause, span⟩) machine := by
  show (Run.lift span (machine.heap.readableProperty scope ref key) >>= _) machine = _
  cases machine.heap.readableProperty scope ref key with
  | error cause => rfl
  | ok found =>
      cases found with
      | none => rfl
      | some property =>
          show (if property.isGetter then ev.call property.value (some (.object ref)) [] scope span
            else pure property.value : Run Value) machine = _
          exact apply_ite (fun read : Run Value => read machine) _ _ _

/-- A property that no code computes is read without any change. -/
theorem leaves_readProperty (scope : FrameRef) (span : Span) {key : String}
    (stored : before.heap.isComputed ref key = false) :
    (ev.readProperty ref key scope span).leaves before = before := by
  have plain : ∀ property, before.heap.readableProperty scope ref key = .ok (some property) →
      property.isGetter = false := by
    intro property readable
    unfold Heap.readableProperty at readable
    unfold Heap.isComputed at stored
    cases listed : (before.heap.object ref).properties.get? key with
    | none =>
        rw [listed] at readable
        cases readable
    | some found =>
        rw [listed] at readable stored
        dsimp only at readable
        split at readable
        · cases readable
        · cases readable
          exact stored
  rw [Run.leaves, readProperty_apply]
  cases readable : before.heap.readableProperty scope ref key with
  | error cause => rfl
  | ok found =>
      cases found with
      | none => rfl
      | some property => simp [plain property readable]

/-- Without getters, names are declared with what was read, and nothing else happens. -/
theorem each_declareField_stored {fields : List (String × String)} {values : List Value}
    (each : Run.Each (ev.declareField scope isConstant ref span) fields before values after)
    (stored : ∀ field ∈ fields, before.heap.isComputed ref field.1 = false) :
    after = { before with
      heap := before.heap.declareAll scope isConstant ((fields.map Prod.snd).zip values) } := by
  induction each with
  | none machine => rfl
  | @next field fields value values before middle after declared rest ih =>
      obtain ⟨read, reads, rfl⟩ := declareField_ok declared
      have unchanged := leaves_readProperty scope span (stored field List.mem_cons_self)
        |>.symm.trans (Run.leaves_of_ok reads)
      subst unchanged
      exact ih fun other member => stored other (List.mem_cons_of_mem field member)

end Stored

/-! ## Patterns -/

section Patterns

variable {fuel : Nat} {pattern : Pattern} {value : Value} {isConstant : Bool} {scope : FrameRef}
  {span : Span} {halt : Halt} {machine after : Machine}

/-- What a declaration leaves in its frame that failed after these names had been given these
values. -/
structure HalfDeclared (scope : FrameRef) (isConstant : Bool) (given : List (String × Value))
    (before after : Heap) : Prop where
  /-- A name holds what it was given last, or else what it held before, up to what getters have
  assigned to it. -/
  kept : ∀ name, Binding.Kept
    (Binding.declaring isConstant name given (before.localBinding? scope name))
    (after.localBinding? scope name)
  /-- So a name that was given nothing is as it was before. -/
  untouched : ∀ name ∉ given.map Prod.fst,
    Binding.Kept (before.localBinding? scope name) (after.localBinding? scope name)

theorem HalfDeclared.ofKept {given : List (String × Value)} {before after : Heap}
    (kept : ∀ name, Binding.Kept
      (Binding.declaring isConstant name given (before.localBinding? scope name))
      (after.localBinding? scope name)) :
    HalfDeclared scope isConstant given before after where
  kept := kept
  untouched name absent := by
    have same := kept name
    rwa [Binding.declaring_of_not_mem absent] at same

/-- An object pattern fails at one of its keys. -/
theorem bindFields_error {ev : Evaluator} {ref : ObjectRef} {fields : List (String × String)}
    (failed : ev.bindFields scope isConstant ref span fields machine = .error halt after) :
    ∃ front key target back values middle, fields = front ++ (key, target) :: back ∧
      Run.Each (ev.declareField scope isConstant ref span) front machine values middle ∧
      ev.readProperty ref key scope span middle = .error halt after := by
  have passage : Run.Passage (fun _ => false) (ev.declareField scope isConstant ref span) fields
      machine _ := Run.passage_through fields machine
  rw [bindFields_eq, Run.map_apply] at failed
  cases gone : Run.through (fun _ => false) (ev.declareField scope isConstant ref span) fields
      machine with
  | ok values last =>
      rw [gone] at failed
      cases failed
  | error stop last =>
      rw [gone] at failed passage
      cases failed
      cases passage with
      | @failed front back field values halt middle after split each _ fails =>
          exact ⟨front, field.1, field.2, back, values, middle, split, each,
            declareField_error fails⟩

/-- A pattern that is not refused fails only while the keys of an object are read. -/
theorem bindPattern_error {ev : Evaluator}
    (failed : ev.bindPattern pattern value isConstant scope span machine = .error halt after) :
    (∃ cause, pattern.refusal? value = some cause ∧ halt = .fault ⟨cause, span⟩ ∧
      after = machine) ∨
    ∃ fields ref, pattern = .object fields ∧ value = .object ref ∧
      pattern.refusal? value = none ∧
      ev.bindFields scope isConstant ref span fields machine = .error halt after := by
  unfold bindPattern at failed
  unfold Pattern.refusal?
  cases defect : pattern.defect? with
  | some cause =>
      rw [defect] at failed
      cases failed
      exact .inl ⟨cause, rfl, rfl, rfl⟩
  | none =>
      rw [defect] at failed
      cases pattern with
      | name name => cases failed
      | list slots =>
          cases value with
          | list ref =>
              obtain ⟨bound, ends⟩ := Run.bindSlots_ok scope isConstant slots
                (machine.heap.list ref).toList machine
              cases ends.symm.trans failed
          | _ =>
              cases failed
              exact .inl ⟨_, rfl, rfl, rfl⟩
      | object fields =>
          cases value with
          | object ref => exact .inr ⟨fields, ref, rfl, rfl, rfl, failed⟩
          | _ =>
              cases failed
              exact .inl ⟨_, rfl, rfl, rfl⟩

/-- A declaration that fails was refused and changed nothing, or it is that of an object pattern
and failed at one of its keys.  Then the names in front of that key have been declared with what
was read, one after the other, and the other names of the frame are as they were; if no key that
was read is computed by a getter, nothing else has happened at all. -/
theorem bindPattern_failed (inside : machine.heap.HasFrame scope)
    (failed : (ofFuel fuel).bindPattern pattern value isConstant scope span machine =
      .error halt after) :
    (∃ cause, pattern.refusal? value = some cause ∧ halt = .fault ⟨cause, span⟩ ∧
      after = machine) ∨
    ∃ ref front key target back values middle,
      pattern = .object (front ++ (key, target) :: back) ∧ value = .object ref ∧
      pattern.refusal? value = none ∧
      Run.Each ((ofFuel fuel).declareField scope isConstant ref span) front machine values
        middle ∧
      (ofFuel fuel).readProperty ref key scope span middle = .error halt after ∧
      HalfDeclared scope isConstant ((front.map Prod.snd).zip values) machine.heap after.heap ∧
      ((∀ field ∈ front ++ [(key, target)], machine.heap.isComputed ref field.1 = false) →
        after = { machine with
          heap := machine.heap.declareAll scope isConstant ((front.map Prod.snd).zip values) } ∧
        ∀ name, after.heap.localBinding? scope name =
          Binding.declaring isConstant name ((front.map Prod.snd).zip values)
            (machine.heap.localBinding? scope name)) := by
  refine (bindPattern_error failed).imp_right ?_
  rintro ⟨fields, ref, rfl, rfl, accepted, failing⟩
  obtain ⟨front, key, target, back, values, middle, rfl, each, fails⟩ := bindFields_error failing
  refine ⟨ref, front, key, target, back, values, middle, rfl, rfl, accepted, each, fails, ?_, ?_⟩
  · obtain ⟨held, declared⟩ := each_declareField_keeps inside each
    obtain ⟨-, kept⟩ := readProperty_keeps held (Run.leaves_of_error fails)
    exact .ofKept fun name => (declared name).trans (kept name)
  · intro stored
    have bound := each_declareField_stored each fun field member =>
      stored field (List.mem_append_left _ member)
    have unchanged : after = middle := by
      rw [← Run.leaves_of_error fails]
      refine leaves_readProperty scope span ?_
      rw [bound, Heap.isComputed_declareAll]
      exact stored (key, target) (List.mem_append_right _ List.mem_cons_self)
    rw [unchanged, bound]
    exact ⟨rfl, fun name => Heap.localBinding?_declareAll _ inside⟩

end Patterns

/-- A machine with an object that has a public and a private property. -/
def halfOpen : Machine :=
  { Machine.bare {} none with
    heap := ((Machine.bare {} none).heap.allocObject { properties := .ofList [
      ("a", { value := .bool true }),
      ("b", { value := .null, access := { isPrivate := true } })] }).2 }

/-- The second key may not be read from outside, and the name of the first one stays declared. -/
theorem bindPattern_keeps_front :
    let pattern : Pattern := .object [("a", "x"), ("b", "y")]
    ∃ after, (ofFuel 1).bindPattern pattern (.object ⟨0⟩) false ⟨0⟩ {} halfOpen =
        .error (.fault ⟨.privateRead "b", {}⟩) after ∧
      halfOpen.heap.isComputed ⟨0⟩ "a" = false ∧ halfOpen.heap.isComputed ⟨0⟩ "b" = false ∧
      "x" ∈ pattern.boundNames ∧ halfOpen.heap.localBinding? ⟨0⟩ "x" = none ∧
      after.heap.localBinding? ⟨0⟩ "x" = some { value := .bool true } :=
  ⟨_, rfl, rfl, rfl, List.mem_cons_self, rfl, rfl⟩

/-- The name of the private property is left alone. -/
theorem bindPattern_failed_private :
    let pattern : Pattern := .object [("a", "x"), ("b", "y")]
    halfOpen.heap.HasFrame ⟨0⟩ ∧
    ∃ after, (ofFuel 1).bindPattern pattern (.object ⟨0⟩) false ⟨0⟩ {} halfOpen =
        .error (.fault ⟨.privateRead "b", {}⟩) after ∧
      Binding.Kept (halfOpen.heap.localBinding? ⟨0⟩ "y") (after.heap.localBinding? ⟨0⟩ "y") := by
  intro pattern
  have inside : halfOpen.heap.HasFrame ⟨0⟩ := Nat.zero_lt_one
  have failed : (ofFuel 1).bindPattern pattern (.object ⟨0⟩) false ⟨0⟩ {} halfOpen =
      .error (.fault ⟨.privateRead "b", {}⟩) _ := rfl
  refine ⟨inside, _, failed, ?_⟩
  rcases bindPattern_failed inside failed with
    ⟨cause, refused, -⟩ |
      ⟨ref, front, key, target, back, values, middle, split, -, -, -, -, half, -⟩
  · cases refused
  · refine half.untouched "y" fun given => ?_
    have inFront : "y" ∈ front.map Prod.snd := by
      obtain ⟨entry, member, named⟩ := List.mem_map.mp given
      exact named ▸ (List.of_mem_zip member).1
    -- The name comes last, so it does not stand in front of a key.
    have fields : [("a", "x"), ("b", "y")] = front ++ (key, target) :: back :=
      Pattern.object.inj split
    match front with
    | [] => cases inFront
    | [first] =>
        cases fields
        exact absurd inFront (by decide)
    | _ :: _ :: front => simp at fields

end Evaluator

end Hati
