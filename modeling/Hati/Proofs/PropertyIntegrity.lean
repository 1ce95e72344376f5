import Hati.Proofs.Law

namespace Hati

/-!
# Property integrity

Only code that makes an object gives it properties without asking, and it has made
the object itself; everything else writes by the rules of access.  As long as
nothing is deleted, an object that was there before an evaluation thus keeps its
properties with their restrictions and their order.  A readonly property keeps its
value, new properties come last and are not restricted, and a frozen object stays
as it is.
-/

namespace Code

/-- A deletion. -/
def IsDelete : Code → Prop
  | expr ⟨.delete _ _, _⟩ => True
  | _ => False

end Code

/-! ## Objects -/

namespace Property

/-- What evaluation makes of an entry that is there: only the value may change,
unless it is readonly. -/
structure Kept (before after : String × Property) : Prop where
  key : after.1 = before.1
  access : after.2.access = before.2.access
  span : after.2.span = before.2.span
  value : before.2.access.isReadonly = true → after.2.value = before.2.value

namespace Kept

variable {first second third : String × Property}

theorem refl (entry : String × Property) : Kept entry entry :=
  ⟨rfl, rfl, rfl, fun _ => rfl⟩

theorem trans (earlier : Kept first second) (later : Kept second third) : Kept first third where
  key := later.key.trans earlier.key
  access := later.access.trans earlier.access
  span := later.span.trans earlier.span
  value readonly :=
    (later.value (by rw [earlier.access, readonly])).trans (earlier.value readonly)

end Kept

/-- The entries that were there are kept in order, and what comes after them is
not restricted. -/
inductive Grow : List (String × Property) → List (String × Property) → Prop where
  | added {entries : List (String × Property)} (plain : ∀ entry ∈ entries, entry.2.access = {}) :
    Grow [] entries
  | kept {old new : String × Property} {before after : List (String × Property)}
    (same : Kept old new) (rest : Grow before after) : Grow (old :: before) (new :: after)

namespace Grow

variable {first second third : List (String × Property)}

theorem refl : ∀ entries, Grow entries entries
  | [] => .added fun _ member => absurd member List.not_mem_nil
  | entry :: entries => .kept (.refl entry) (refl entries)

/-- Entries without restrictions stay so, and no others are added to them. -/
theorem plain (grow : Grow first second) (before : ∀ entry ∈ first, entry.2.access = {}) :
    ∀ entry ∈ second, entry.2.access = {} := by
  induction grow with
  | added plain => exact plain
  | @kept old new _ _ same _ ih =>
      intro entry member
      rcases List.mem_cons.mp member with rfl | inRest
      · exact same.access.trans (before old List.mem_cons_self)
      · exact ih (fun entry member => before entry (List.mem_cons_of_mem old member)) entry inRest

theorem trans (earlier : Grow first second) (later : Grow second third) : Grow first third := by
  induction earlier generalizing third with
  | added plain => exact .added (later.plain plain)
  | kept same _ ih =>
      cases later with
      | kept sameLater rest => exact .kept (same.trans sameLater) (ih rest)

/-- A key that is not there is written at the end. -/
theorem insertEntry_absent {key : String} {property : Property} (free : property.access = {}) :
    ∀ {entries : List (String × Property)}, entries.lookup key = none →
      Grow entries (Dict.insertEntry key property entries)
  | [], _ => .added fun _ member => by rwa [List.mem_singleton.mp member]
  | (name, old) :: rest, absent => by
      rw [List.lookup_cons] at absent
      cases other : key == name with
      | true => simp [other] at absent
      | false =>
          simp only [other] at absent
          rw [Dict.insertEntry, Bool.beq_comm, other]
          exact .kept (.refl _) (insertEntry_absent free absent)

/-- Writing to a key that is there changes only the first entry under that key. -/
theorem insertEntry_present {key : String} {old property : Property}
    (same : Kept (key, old) (key, property)) :
    ∀ {entries : List (String × Property)}, entries.lookup key = some old →
      Grow entries (Dict.insertEntry key property entries)
  | [], present => by cases present
  | (name, stored) :: rest, present => by
      rw [List.lookup_cons] at present
      cases other : key == name with
      | true =>
          simp only [other, Option.some.injEq] at present
          obtain rfl : key = name := by simpa using other
          subst present
          rw [Dict.insertEntry, beq_self_eq_true, if_pos rfl]
          exact .kept same (refl rest)
      | false =>
          simp only [other] at present
          rw [Dict.insertEntry, Bool.beq_comm, other]
          exact .kept (.refl _) (insertEntry_present same present)

end Grow

end Property

namespace Object

/-- What evaluation makes of an object that was there before. -/
structure Retains (before after : Object) : Prop where
  entries : Property.Grow before.properties.entries after.properties.entries
  frozen : before.isFrozen = true → after = before

namespace Retains

variable {first second third : Object}

theorem refl (object : Object) : Retains object object :=
  ⟨.refl _, fun _ => rfl⟩

theorem trans (earlier : Retains first second) (later : Retains second third) :
    Retains first third := by
  refine ⟨earlier.entries.trans later.entries, fun frozen => ?_⟩
  have same := earlier.frozen frozen
  subst same
  exact later.frozen frozen

end Retains

end Object

namespace Heap

variable {permit : Permit} {heap after : Heap}

theorem object_allocObject_of_lt {ref : ObjectRef} (allocated : ref.index < heap.objects.size)
    (object : Object) : (heap.allocObject object).2.object ref = heap.object ref := by
  have apart : ref.index ≠ heap.objects.size := Nat.ne_of_lt allocated
  simp [Heap.object, Heap.allocObject, Array.getElem?_push, apart]

/-- A change of one object is a change of every object if it is allowed for that one. -/
theorem retains_modifyObject {ref : ObjectRef} (allocated : ref.index < heap.objects.size)
    {target : ObjectRef} {f : Object → Object}
    (changed : ref = target → Object.Retains (heap.object ref) (f (heap.object ref))) :
    Object.Retains (heap.object ref) ((heap.modifyObject target f).object ref) := by
  by_cases same : ref = target
  · subst same
    rw [object_modifyObject_self heap ref f allocated]
    exact changed rfl
  · rw [object_modifyObject_of_ne same]
    exact .refl _

theorem Effect.retains (effect : Effect permit heap after) {ref : ObjectRef}
    (allocated : ref.index < heap.objects.size) (foreign : ¬ permit.owns ref)
    (lasting : ¬ permit.clears) : Object.Retains (heap.object ref) (after.object ref) := by
  cases effect with
  | allocObject object =>
      rw [object_allocObject_of_lt allocated]
      exact .refl _
  | insert target key property owned =>
      refine retains_modifyObject allocated fun same => ?_
      subst same
      exact absurd owned foreign
  | add target key value span thawed absent =>
      refine retains_modifyObject allocated fun same => ?_
      subst same
      exact ⟨.insertEntry_absent rfl absent, fun frozen => absurd frozen (by simp [thawed])⟩
  | replace target key value old thawed present writable =>
      refine retains_modifyObject allocated fun same => ?_
      subst same
      have kept : Property.Kept (key, old) (key, { old with value }) :=
        ⟨rfl, rfl, rfl, fun readonly => absurd readonly (by simp [writable])⟩
      rw [Object.replaceValue, present]
      exact ⟨.insertEntry_present kept present, fun frozen => absurd frozen (by simp [thawed])⟩
  | freeze target =>
      refine retains_modifyObject allocated fun same => ?_
      refine ⟨.refl _, fun frozen => ?_⟩
      rw [← frozen]
  | clear target permitted => exact absurd permitted lasting
  | _ => exact .refl _

theorem Path.retains (path : Path permit heap after) {ref : ObjectRef}
    (allocated : ref.index < heap.objects.size) (foreign : ¬ permit.owns ref)
    (lasting : ¬ permit.clears) : Object.Retains (heap.object ref) (after.object ref) := by
  induction path with
  | refl => exact .refl _
  | tail path effect ih =>
      have still := Nat.lt_of_lt_of_le allocated (Path.size_objects_le path)
      exact ih.trans (effect.retains still foreign lasting)

end Heap

/-! ## Evaluation -/

namespace Law

/-- Nothing is deleted, and properties are given directly to new objects only. -/
def retaining (heap : Heap) (stored : heap.Stores (Code.Lacks Code.IsDelete)) : Law where
  permit :=
    { code := Code.Lacks Code.IsDelete
      declares := fun _ _ => True
      owns := fun ref => heap.objects.size ≤ ref.index
      clears := False }
  since := heap
  calls _ _ := True
  abandons _ := False
  exhausts := True
  stored := stored
  code_parts _ _ lacks member := lacks.part member
  declares_fresh _ _ _ := trivial
  owns_fresh _ fresh := fresh
  clears_delete _ _ _ lacks := lacks.self trivial
  abandons_orAt _ _ impossible := impossible

theorem retains {machine : Machine} {stored : machine.heap.Stores (Code.Lacks Code.IsDelete)}
    {α : Type} {run : Run α} {result : Machine → α → Prop}
    (relates : (retaining machine.heap stored).logic.Relates machine run run result)
    {ref : ObjectRef} (allocated : ref.index < machine.heap.objects.size) :
    Object.Retains (machine.heap.object ref) ((run.leaves machine).heap.object ref) := by
  have evolves := evolves relates ⟨.refl, trivial⟩
  exact Heap.Path.retains evolves.path allocated (Nat.not_le_of_lt allocated) id

end Law

namespace Evaluator

/-- Without deletions, every object that was there before an evaluation retains its
properties, whatever the evaluation calls and however it ends. -/
theorem retains_properties (fuel : Nat) (machine : Machine) (scope : FrameRef)
    (stored : machine.heap.Stores (Code.Lacks Code.IsDelete)) (ref : ObjectRef)
    (allocated : ref.index < machine.heap.objects.size) :
    (∀ expr : Expr, (Code.expr expr).Lacks Code.IsDelete →
      Object.Retains (machine.heap.object ref)
        ((((ofFuel fuel).eval expr scope).leaves machine).heap.object ref)) ∧
    (∀ stmt : Stmt, (Code.stmt stmt).Lacks Code.IsDelete →
      Object.Retains (machine.heap.object ref)
        ((((ofFuel fuel).exec stmt scope).leaves machine).heap.object ref)) := by
  let law := Law.retaining machine.heap stored
  have covers := law.covers_ofFuel trivial (fun _ _ _ _ => trivial) fuel
  constructor
  · exact fun expr lacks => Law.retains (covers.eval lacks trivial) allocated
  · intro stmt lacks
    have admitted : law.logic.Admits machine stmt scope :=
      Law.admits_of_declares (fun _ => trivial) lacks
    exact Law.retains (covers.exec lacks admitted) allocated

/-- A machine where `o` is an object whose property `k` is readonly. -/
def readonlyMachine : Machine :=
  { Machine.bare {} none with
    heap :=
      { frames := #[{ bindings := ⟨[("o", { value := .object ⟨0⟩ })]⟩ }]
        objects :=
          #[{ properties := ⟨[("k", { value := .null, access := { isReadonly := true } })]⟩ }] } }

/-- The object retains its property when a program assigns to it. -/
theorem retains_readonly_property :
    Object.Retains (readonlyMachine.heap.object ⟨0⟩)
      ((((ofFuel 5).exec ⟨.assign ⟨.member ⟨.name "o", {}⟩ "k" false, {}⟩ ⟨.bool true, {}⟩, {}⟩
        ⟨0⟩).leaves readonlyMachine).heap.object ⟨0⟩) := by
  have stored : readonlyMachine.heap.Stores (Code.Lacks Code.IsDelete) :=
    .ofEmpty rfl rfl _
  refine (retains_properties 5 readonlyMachine ⟨0⟩ stored ⟨0⟩ Nat.one_pos).2 _ ?_
  refine .intro id fun part member => ?_
  simp only [Code.parts, StmtNode.parts, List.mem_cons, List.not_mem_nil, or_false] at member
  rcases member with rfl | rfl
  · refine .intro id fun part member => ?_
    obtain rfl : part = .expr ⟨.name "o", {}⟩ := by
      simpa [Code.parts, ExprNode.parts] using member
    exact .intro id fun _ member => absurd member List.not_mem_nil
  · exact .intro id fun _ member => absurd member List.not_mem_nil

end Evaluator

end Hati
