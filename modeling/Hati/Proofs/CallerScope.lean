import Hati.Proofs.CallContext

namespace Hati

/-!
# Calls do not see the scope of their caller

A declared function runs in the scope that it was declared in.  Built-in functions
are told where they are called from, and hand it on to what they read and to what
they call back, so it has to be shown that it never makes a difference.  It could
make one only where a private property is read.  The functions on objects read
the keys that were public when they were called; a getter may run between the
reads, but it cannot make one of these keys private: only the code that is making
an object declares private properties in it, and that code is not running then.

The comparison is with an evaluator in which every call is made from one and the
same scope.
-/

/-! ## Keys that are not private -/

namespace Heap

/-- Whatever stands under the key can be read from everywhere. -/
def IsOpen (heap : Heap) (ref : ObjectRef) (key : String) : Prop :=
  ∀ property, (heap.object ref).properties.get? key = some property →
    property.access.isPrivate = false

variable {permit : Permit} {heap after : Heap} {ref : ObjectRef} {key : String}

/-- The public keys of an object are open as long as none of them occurs twice. -/
theorem isOpen_of_mem_publicKeys (distinct : heap.KeysDistinct)
    (member : key ∈ (heap.object ref).publicKeys) : heap.IsOpen ref key := by
  obtain ⟨⟨name, listed⟩, inEntries, rfl⟩ := List.mem_map.mp member
  obtain ⟨inObject, shown⟩ := List.mem_filter.mp inEntries
  intro property found
  rw [Dict.get?_of_mem (distinct ref) inObject, Option.some.injEq] at found
  subst found
  simpa using shown

/-- Whoever asks, an open key reads the same. -/
theorem IsOpen.readableProperty_eq (isOpen : heap.IsOpen ref key) (scope other : FrameRef) :
    heap.readableProperty scope ref key = heap.readableProperty other ref key := by
  unfold Heap.readableProperty
  cases found : (heap.object ref).properties.get? key with
  | none => rfl
  | some property => simp [isOpen property found]

/-- A change of one object leaves open what it leaves open in that object. -/
theorem IsOpen.modifyObject (isOpen : heap.IsOpen ref key)
    (allocated : ref.index < heap.objects.size) {target : ObjectRef} {f : Object → Object}
    (changed : ref = target → ∀ property,
      (f (heap.object ref)).properties.get? key = some property → property.access.isPrivate = false) :
    (heap.modifyObject target f).IsOpen ref key := by
  unfold IsOpen
  by_cases same : ref = target
  · subst same
    rw [object_modifyObject_self heap ref f allocated]
    exact changed rfl
  · rw [object_modifyObject_of_ne same]
    exact isOpen

/-- A property written under an open key, or under another one, leaves the key open. -/
theorem IsOpen.get?_insert (isOpen : heap.IsOpen ref key) {name : String} {written : Property}
    (shown : name = key → written.access.isPrivate = false) (property : Property)
    (found : ((heap.object ref).properties.insert name written).get? key = some property) :
    property.access.isPrivate = false := by
  by_cases same : key = name
  · subst same
    rw [Dict.get?_insert_self, Option.some.injEq] at found
    exact found ▸ shown rfl
  · rw [Dict.get?_insert_of_ne same] at found
    exact isOpen property found

theorem Effect.isOpen (effect : Effect permit heap after)
    (allocated : ref.index < heap.objects.size) (foreign : ¬ permit.owns ref)
    (isOpen : heap.IsOpen ref key) : after.IsOpen ref key := by
  cases effect with
  | allocObject object distinct =>
      have kept : (heap.allocObject object).2.object ref = heap.object ref := by
        have apart : ref.index ≠ heap.objects.size := Nat.ne_of_lt allocated
        simp [Heap.object, Heap.allocObject, Array.getElem?_push, apart]
      rwa [IsOpen, kept]
  | insert target name property owned =>
      refine isOpen.modifyObject allocated fun same => ?_
      subst same
      exact absurd owned foreign
  | add target name value span thawed absent =>
      exact isOpen.modifyObject allocated fun _ => isOpen.get?_insert fun _ => rfl
  | replace target name value old thawed present writable =>
      refine isOpen.modifyObject allocated fun same => ?_
      subst same
      rw [Object.replaceValue, present]
      refine isOpen.get?_insert fun named => ?_
      subst named
      exact isOpen old present
  | freeze target => exact isOpen.modifyObject allocated fun _ => isOpen
  | clear target permitted =>
      refine isOpen.modifyObject allocated fun _ property found => ?_
      simp [Object.clear, Dict.get?] at found
  | _ => exact isOpen

theorem Path.isOpen (path : Path permit heap after) (allocated : ref.index < heap.objects.size)
    (foreign : ¬ permit.owns ref) (isOpen : heap.IsOpen ref key) : after.IsOpen ref key := by
  induction path with
  | refl => exact isOpen
  | tail path effect ih =>
      exact effect.isOpen (Nat.lt_of_lt_of_le allocated (Path.size_objects_le path)) foreign ih

/-- An object outside the heap has no keys. -/
theorem allocated_of_mem_publicKeys (member : key ∈ (heap.object ref).publicKeys) :
    ref.index < heap.objects.size := by
  refine Nat.lt_of_not_le fun outside => ?_
  have missing : heap.objects[ref.index]? = none := Array.getElem?_eq_none outside
  simp [Heap.object, missing, Object.publicKeys] at member

/-! ## Effects by the objects they may own -/

theorem Effect.mono {weaker : Permit} (effect : Effect permit heap after)
    (code : ∀ part, permit.code part → weaker.code part)
    (declares : ∀ frame name, permit.declares frame name → weaker.declares frame name)
    (assigns : ∀ name, permit.assigns name → weaker.assigns name)
    (owns : ∀ ref, permit.owns ref → weaker.owns ref) (clears : permit.clears → weaker.clears) :
    Effect weaker heap after := by
  cases effect with
  | allocFrame parent => exact .allocFrame heap parent
  | allocList items => exact .allocList heap items
  | allocObject object distinct => exact .allocObject heap object distinct
  | allocBuiltin builtin => exact .allocBuiltin heap builtin
  | allocClosure decl scope stored =>
      exact .allocClosure heap decl scope fun part member => code part (stored part member)
  | allocClass cls stored =>
      exact .allocClass heap cls fun part member => code part (stored part member)
  | declare frame name binding permitted =>
      exact .declare heap frame name binding (declares frame name permitted)
  | assign frame name value old bound changeable permitted =>
      exact .assign heap frame name value old bound changeable (assigns name permitted)
  | modifyList ref f => exact .modifyList heap ref f
  | insert ref key property owned => exact .insert heap ref key property (owns ref owned)
  | add ref key value span thawed absent => exact .add heap ref key value span thawed absent
  | replace ref key value old thawed present writable =>
      exact .replace heap ref key value old thawed present writable
  | freeze ref => exact .freeze heap ref
  | clear ref permitted => exact .clear heap ref (clears permitted)

end Heap

/-! ## Evaluators that call from one scope -/

namespace Evaluator

/-- The same evaluator, except that calls are made from one scope whoever the caller is. -/
def callingFrom (ev : Evaluator) (fixed : FrameRef) : Evaluator :=
  { ev with call := fun callee receiver args _ span => ev.call callee receiver args fixed span }

/-- The evaluator of some fuel with all its calls made from one scope. -/
def detached (fixed : FrameRef) : Nat → Evaluator
  | 0 => exhausted
  | fuel + 1 => ((detached fixed fuel).next fuel).callingFrom fixed

theorem detached_fuel (fixed : FrameRef) (fuel : Nat) :
    (detached fixed fuel).fuel = (ofFuel fuel).fuel := by
  cases fuel <;> rfl

/-- Calls do not look at the scope of their caller. -/
def IgnoresCaller (ev : Evaluator) : Prop :=
  ∀ callee receiver args scope other span,
    ev.call callee receiver args scope span = ev.call callee receiver args other span

theorem detached_ignoresCaller (fixed : FrameRef) : ∀ fuel, (detached fixed fuel).IgnoresCaller
  | 0 => fun _ _ _ _ _ _ => rfl
  | _ + 1 => fun _ _ _ _ _ _ => rfl

namespace IgnoresCaller

variable {ev : Evaluator}

/-- The methods of lists use their scope for nothing but calling back. -/
theorem runListMethod_eq (ignores : ev.IgnoresCaller) (method : ListMethod) (ref : ListRef)
    (args : List Value) (scope other : FrameRef) (span : Span) :
    ev.runListMethod method ref args scope span = ev.runListMethod method ref args other span := by
  have asks : ∀ function, ev.ask function ref scope span = ev.ask function ref other span :=
    fun function => funext fun element => ignores _ _ _ _ _ _
  have accepts : ∀ function,
      ev.accepts function ref scope span = ev.accepts function ref other span :=
    fun function => funext fun element => by
      rw [Evaluator.accepts, Evaluator.accepts, asks]
  have compares : ∀ comparator,
      ev.comparatorLess comparator scope span = ev.comparatorLess comparator other span :=
    fun comparator => funext fun a => funext fun b => by
      rw [comparatorLess, comparatorLess, ignores _ _ _ scope other]
  have sorts : ev.sortList ref args scope span = ev.sortList ref args other span := by
    simp only [sortList, compares]
  have reduces : ∀ elements,
      ev.reduceList method ref args elements scope span =
        ev.reduceList method ref args elements other span := by
    intro elements
    simp only [reduceList, ignores _ _ _ scope other]
  cases method <;> simp only [runListMethod, asks, accepts, sorts, reduces]

end IgnoresCaller

end Evaluator

/-! ## The comparison -/

namespace Law

/-- Properties are given directly to new objects only. -/
def detaching (heap : Heap) : Law where
  permit :=
    { code := fun _ => True
      declares := fun _ _ => True
      owns := fun ref => heap.objects.size ≤ ref.index
      clears := True }
  since := heap
  calls _ _ := True
  abandons _ := False
  exhausts := True
  stored := ⟨fun _ _ _ _ _ _ => trivial, fun _ _ _ => trivial⟩
  code_parts _ _ _ _ := trivial
  declares_fresh _ _ _ := trivial
  owns_fresh _ fresh := fresh
  clears_delete _ _ _ _ := trivial
  abandons_orAt _ _ impossible := impossible

variable {α : Type} {first second : Run α} {heap : Heap} {world : Machine}
  {result : Machine → α → Prop}

theorem detaching_deepens : (detaching heap).logic.Deepens (detaching heap).logic :=
  deepens fun _ _ _ entered => entered

/-- What is so from every machine that evaluation comes to is so from the first one. -/
theorem relates_detaching
    (since : ∀ machine, (detaching heap).Reached machine →
      (detaching machine.heap).logic.Concludes machine result (first machine) (second machine)) :
    (detaching heap).logic.Relates world first second result := by
  intro machine onward
  have reached := ((detaching heap).logic.self onward).1
  have concludes := since machine reached
  have wider : ∀ after, machine.Evolves (detaching machine.heap).permit after →
      machine.Evolves (detaching heap).permit after := by
    intro after evolves
    have grown := Heap.Path.size_objects_le reached.path
    have effects : ∀ earlier later, Heap.Effect (detaching machine.heap).permit earlier later →
        Heap.Effect (detaching heap).permit earlier later := fun earlier later effect =>
      effect.mono (fun _ _ => trivial) (fun _ _ _ => trivial) (fun _ _ => trivial)
        (fun _ fresh => Nat.le_trans grown fresh) fun _ => trivial
    exact { evolves with path := Relation.ReflTransGen.mono effects _ _ evolves.path }
  revert concludes
  cases first machine with
  | ok a after => exact fun concludes => ⟨⟨reached, wider after concludes.1.2⟩, concludes.2⟩
  | error halt after => exact fun concludes => ⟨⟨reached, wider after concludes.1.2⟩, concludes.2⟩

/-- An evaluator and one that ignores callers do the same from all heaps whose keys are
distinct. -/
def Detaches (ev other : Evaluator) : Prop :=
  other.IgnoresCaller ∧ ∀ heap : Heap, heap.KeysDistinct →
    (detaching heap).logic.Covers (fun _ => True) ev other

namespace Detaches

variable {ev other : Evaluator} {scope elsewhere : FrameRef} {span : Span}
  (detaches : Detaches ev other) (distinct : heap.KeysDistinct)
include detaches distinct

/-- An open key reads the same from two scopes, also after other code has run. -/
theorem readProperty {ref : ObjectRef} {key : String} (allocated : ref.index < heap.objects.size)
    (isOpen : heap.IsOpen ref key) :
    (detaching heap).logic.Relates world (ev.readProperty ref key scope span)
      (other.readProperty ref key elsewhere span) (detaching heap).logic.Held := by
  intro machine onward
  have valid := (detaching heap).logic.self onward
  have stillOpen : machine.heap.IsOpen ref key :=
    Heap.Path.isOpen valid.1.path allocated (Nat.not_le_of_lt allocated) isOpen
  show (detaching heap).logic.Concludes machine _
    (EStateM.bind (Run.lift span (machine.heap.readableProperty scope ref key)) _ machine)
    (EStateM.bind (Run.lift span (machine.heap.readableProperty elsewhere ref key)) _ machine)
  rw [stillOpen.readableProperty_eq scope elsewhere]
  have converts := Converts.readableProperty machine.heap elsewhere ref key
  refine Logic.Relates.bind (.lift trivial converts) (fun after found _ _ => ?_) machine valid
  cases found with
  | none => exact .value held
  | some property =>
      dsimp only
      split
      · rw [detaches.1 _ _ _ elsewhere scope]
        exact relates_call (detaches.2 heap distinct)
      · exact .value held

/-- The public entries of an object are those that were public at the start. -/
theorem publicEntries {ref : ObjectRef} :
    (detaching heap).logic.Relates world (ev.publicEntries ref scope span)
      (other.publicEntries ref elsewhere span) := by
  refine relates_detaching fun machine reached => ?_
  have distinctNow := Heap.Path.keysDistinct reached.path distinct
  have reads : (detaching machine.heap).logic.Relates machine
      (ev.readProperties ref (machine.heap.object ref).publicKeys scope span)
      (other.readProperties ref (machine.heap.object ref).publicKeys elsewhere span)
      fun _ _ => True := by
    refine (Logic.Relates.mapM (fun _ _ _ _ _ => trivial) fun key member => ?_).forget
    have isOpen := Heap.isOpen_of_mem_publicKeys distinctNow member
    have allocated := Heap.allocated_of_mem_publicKeys member
    exact .bind (detaches.readProperty distinctNow allocated isOpen) fun _ _ _ _ => .done
  exact reads machine ⟨⟨.refl, trivial⟩, .refl machine⟩

theorem runGlobal {function : GlobalFunction} {args : List Value} :
    (detaching heap).logic.Relates world (Run.orAt span (ev.runGlobal function args scope span))
      (Run.orAt span (other.runGlobal function args elsewhere span))
      (detaching heap).logic.Held := by
  have alike : (detaching heap).logic.Relates world
      (Run.orAt span (ev.runGlobal function args scope span))
      (Run.orAt span (other.runGlobal function args scope span)) (detaching heap).logic.Held :=
    (detaches.2 heap distinct).runGlobal trivial fun _ _ => held
  have target : ∀ function, (detaching heap).logic.Relates world
      (Run.objectArgument function args span) (Run.objectArgument function args span) :=
    fun _ => (Logic.Relates.objectArgument trivial fun _ _ => held).forget
  cases function with
  | objectValues =>
      refine .orAt trivial ((target _).andThen fun _ => ?_)
      exact (detaches.publicEntries distinct).andThen fun _ => .newList fun _ _ => held
  | objectEntries =>
      refine .orAt trivial ((target _).andThen fun _ => ?_)
      refine (detaches.publicEntries distinct).andThen fun _ => ?_
      refine .bind (.mapM Logic.lasting_held fun _ _ => .newList fun _ _ => held) ?_
      exact fun _ _ _ _ => .newList fun _ _ => held
  | _ => exact alike

theorem runBuiltin {builtin : Builtin} {args : List Value} :
    (detaching heap).logic.Relates world (Run.orAt span (ev.runBuiltin builtin args scope span))
      (Run.orAt span (other.runBuiltin builtin args elsewhere span))
      (detaching heap).logic.Held := by
  have alike : (detaching heap).logic.Relates world
      (Run.orAt span (ev.runBuiltin builtin args scope span))
      (Run.orAt span (other.runBuiltin builtin args scope span)) (detaching heap).logic.Held :=
    (detaches.2 heap distinct).runBuiltin trivial (fun _ _ _ => held) fun _ _ => held
  cases builtin with
  | list method ref =>
      have same : other.runBuiltin (.list method ref) args elsewhere span =
          other.runBuiltin (.list method ref) args scope span :=
        detaches.1.runListMethod_eq method ref args elsewhere scope span
      rw [same]
      exact alike
  | global function => exact detaches.runGlobal distinct
  | text => exact alike
  | number => exact alike

theorem invoke {callee : Value} {receiver : Option Value} {args : List Value} :
    (detaching heap).logic.Relates world (ev.invoke callee receiver args scope span)
      (other.invoke callee receiver args elsewhere span) (detaching heap).logic.Held := by
  cases callee with
  | function ref =>
      refine .readThen fun machine onward => ?_
      cases (machine.heap.function ref).body with
      | builtin builtin => exact detaches.runBuiltin distinct
      | closure decl closure =>
          intro after further
          refine detaching_deepens.concludes_deeper trivial ((detaching heap).logic.self further) ?_
          have covers := detaches.2 heap distinct
          refine detaching_deepens.activate covers (fun _ _ => trivial) trivial ?_ ?_ ?_ ?_
          · exact fun _ _ => trivial
          · exact False.elim
          · exact fun _ _ => held
          · exact fun _ _ => held
  | _ => exact .fail trivial rfl

end Detaches

/-- With any amount of fuel it makes no difference where calls are made from. -/
theorem detaches_ofFuel (fixed : FrameRef) :
    ∀ fuel, Detaches (.ofFuel fuel) (.detached fixed fuel)
  | 0 => ⟨Evaluator.detached_ignoresCaller fixed 0,
      fun _ _ => Logic.covers_exhausted fun _ => trivial⟩
  | fuel + 1 => by
      have detaches := detaches_ofFuel fixed fuel
      refine ⟨Evaluator.detached_ignoresCaller fixed (fuel + 1), fun heap distinct => ?_⟩
      have covers := detaches.2 heap distinct
      have laps : (detaching heap).logic.AllowsLaps (Evaluator.ofFuel fuel).fuel
          (Evaluator.detached fixed fuel).fuel :=
        .inl ⟨fun _ => trivial, (Evaluator.detached_fuel fixed fuel).symm⟩
      have next := covers.next detaching_deepens covers (fun _ _ => trivial) laps fuel fuel
      exact { next with call := fun _ _ _ _ => detaches.invoke distinct }

end Law

namespace Evaluator

/-- A call gives the same result, the same failure and the same final state from
whatever scope it is made. -/
theorem call_ignores_caller (fuel : Nat) (machine : Machine) (distinct : machine.heap.KeysDistinct)
    (callee : Value) (receiver : Option Value) (args : List Value) (scope other : FrameRef)
    (span : Span) :
    (ofFuel fuel).call callee receiver args scope span machine =
      (ofFuel fuel).call callee receiver args other span machine := by
  have detaches := Law.detaches_ofFuel ⟨0⟩ fuel
  have covers := detaches.2 machine.heap distinct
  have same : ∀ caller : FrameRef,
      (detached ⟨0⟩ fuel).call callee receiver args caller span machine =
        (ofFuel fuel).call callee receiver args caller span machine :=
    fun caller => (Law.relates_call covers).eq ⟨⟨.refl, trivial⟩, .refl machine⟩ fun _ => id
  rw [← same scope, ← same other, detaches.1 callee receiver args scope other]

/-- A machine with an object that has a public and a private property, a scope
outside the object and a scope inside, and the function that lists values. -/
def sharedMachine : Machine :=
  { Machine.bare {} none with
    heap :=
      { frames :=
          #[{}, { parent := some ⟨0⟩, bindings := ⟨[(receiverName, { value := .object ⟨0⟩ })]⟩ }]
        objects :=
          #[{ properties :=
                ⟨[("shown", { value := .bool true }),
                  ("hidden", { value := .null, access := { isPrivate := true } })]⟩ }]
        functions := #[.ofBuiltin (.global .objectValues)] } }

/-- Listing values from inside the object lists no more than from outside. -/
theorem call_ignores_caller_inside :
    sharedMachine.heap.isInternal ⟨0⟩ ⟨0⟩ = false ∧ sharedMachine.heap.isInternal ⟨1⟩ ⟨0⟩ = true ∧
      (ofFuel 3).call (.function ⟨0⟩) none [.object ⟨0⟩] ⟨0⟩ {} sharedMachine =
        (ofFuel 3).call (.function ⟨0⟩) none [.object ⟨0⟩] ⟨1⟩ {} sharedMachine := by
  have distinct : sharedMachine.heap.KeysDistinct := by
    rintro ⟨position⟩
    cases position with
    | zero => decide
    | succ position => simp [sharedMachine, Heap.object, Dict.keys]
  exact ⟨by decide, by decide,
    call_ignores_caller 3 sharedMachine distinct (.function ⟨0⟩) none [.object ⟨0⟩] ⟨0⟩ ⟨1⟩ {}⟩

end Evaluator

end Hati
