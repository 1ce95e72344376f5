import Hati.Library.Global

namespace Hati

/-!
# Private properties do not show

Texts, trees and lists of keys are made from two heaps that hold the same things but for
the private properties of their objects.  Whoever reads the results cannot tell the heaps
apart.

The private properties of one heap may lead to cells that the other does not have, so the
heaps need not have the same size, and neither need the bounds on how deep a walk goes.
Both bounds suffice: every step of a walk opens a container that was not open before.
-/

namespace Object

/-- The entries that may show: the public ones, and the link to the class. -/
def disclosed (object : Object) : List (String × Property) :=
  object.properties.entries.filter fun (key, property) =>
    !property.access.isPrivate || key == classLinkName

/-- Whatever picks public entries only can pick them from the disclosed ones. -/
theorem filter_disclosed (object : Object) {picks : String × Property → Bool}
    (openly : ∀ entry, picks entry = true → entry.2.access.isPrivate = false) :
    object.disclosed.filter picks = object.properties.entries.filter picks := by
  rw [disclosed, List.filter_filter]
  apply List.filter_congr
  intro entry _
  cases picked : picks entry with
  | false => rfl
  | true => simp [openly entry picked]

theorem visible_eq (object : Object) :
    object.visible = object.disclosed.filter fun (key, property) =>
      !property.access.isPrivate && key != classLinkName := by
  refine (object.filter_disclosed ?_).symm
  intro entry picked
  simpa using (Bool.and_eq_true_iff.mp picked).1

theorem publicKeys_eq (object : Object) :
    object.publicKeys =
      (object.disclosed.filter fun entry => !entry.2.access.isPrivate).map Prod.fst := by
  rw [publicKeys, object.filter_disclosed]
  intro entry picked
  simpa using picked

theorem mem_disclosed_of_visible {object : Object} {entry : String × Property}
    (member : entry ∈ object.visible) : entry ∈ object.disclosed := by
  rw [visible_eq] at member
  exact (List.mem_filter.mp member).1

/-- The link to the class is disclosed, private or not. -/
theorem get?_classLinkName (object : Object) :
    object.properties.get? classLinkName = object.disclosed.lookup classLinkName := by
  rw [Dict.get?, disclosed]
  induction object.properties.entries with
  | nil => rfl
  | cons entry entries ih =>
      rcases entry with ⟨key, property⟩
      by_cases link : key = classLinkName
      · rw [List.filter_cons_of_pos (by simp [link]), List.lookup_cons, List.lookup_cons, link]
        simp
      · have miss : (classLinkName == key) = false := beq_false_of_ne fun same => link same.symm
        rw [List.lookup_cons, miss]
        by_cases hidden : property.access.isPrivate = true
        · rw [List.filter_cons_of_neg (by simp [link, hidden]), ih]
        · rw [List.filter_cons_of_pos (by simp [hidden]), List.lookup_cons, miss, ih]

end Object

namespace Heap

/-- The heaps are the same but for private properties, as far as this shows from the
`shown` values: what these hold is shown as well, unless it is private.  With every value
shown, only private properties may differ; with fewer, there may be cells on one side that
only private properties lead to. -/
structure AgreesOn (shown : Value → Prop) (left right : Heap) : Prop where
  list : ∀ ref, shown (.list ref) → left.list ref = right.list ref
  items : ∀ ref, shown (.list ref) → ∀ item ∈ (left.list ref).toList, shown item
  object : ∀ ref, shown (.object ref) → (left.object ref).disclosed = (right.object ref).disclosed
  values : ∀ ref, shown (.object ref) → ∀ entry ∈ (left.object ref).disclosed, shown entry.2.value
  function : ∀ ref, shown (.function ref) → left.function ref = right.function ref
  «class» : ∀ ref, shown (.class ref) → left.class ref = right.class ref
  statics : ∀ ref, shown (.class ref) → shown (.object (left.class ref).statics)

/-! ## How deep a walk goes -/

def containers (heap : Heap) : List Container :=
  (List.range heap.lists.size).map (fun index => .list ⟨index⟩) ++
    (List.range heap.objects.size).map fun index => .object ⟨index⟩

/-- How many containers are still to be opened. -/
def unopened (heap : Heap) (opened : List Container) : Nat :=
  (heap.containers.filter fun container => !opened.contains container).length

theorem unopened_le (heap : Heap) (opened : List Container) :
    heap.unopened opened ≤ heap.containerCount := by
  have bound : heap.unopened opened ≤ heap.containers.length := List.length_filter_le _ _
  simpa [containers, containerCount] using bound

/-- Opening a container leaves fewer to be opened. -/
theorem unopened_cons_lt {heap : Heap} {container : Container} {opened : List Container}
    (allocated : container ∈ heap.containers) (closed : opened.contains container = false) :
    heap.unopened (container :: opened) < heap.unopened opened := by
  have again : heap.unopened (container :: opened) =
      ((heap.containers.filter fun other => !opened.contains other).filter fun other =>
        !(other == container)).length := by
    rw [unopened, List.filter_filter]
    congr 1
    apply List.filter_congr
    intro other _
    rw [List.contains_cons, Bool.not_or]
  rw [again]
  refine List.length_filter_lt_length_iff_exists.mpr ⟨container, ?_, by simp⟩
  exact List.mem_filter.mpr ⟨allocated, by rw [closed]; rfl⟩

/-- Only a list of the heap has items. -/
theorem list_mem_containers {heap : Heap} {ref : ListRef} {item : Value}
    (member : item ∈ (heap.list ref).toList) : .list ref ∈ heap.containers := by
  refine List.mem_append_left _ (List.mem_map.mpr ⟨ref.index, ?_, rfl⟩)
  refine List.mem_range.mpr (Decidable.of_not_not fun outside => ?_)
  rw [Heap.list, Array.getD, dif_neg outside] at member
  cases member

/-- Only an object of the heap has properties. -/
theorem object_mem_containers {heap : Heap} {ref : ObjectRef} {entry : String × Property}
    (member : entry ∈ (heap.object ref).disclosed) : .object ref ∈ heap.containers := by
  refine List.mem_append_right _ (List.mem_map.mpr ⟨ref.index, ?_, rfl⟩)
  refine List.mem_range.mpr (Decidable.of_not_not fun outside => ?_)
  rw [Heap.object, Array.getD, dif_neg outside] at member
  cases member

namespace AgreesOn

variable {shown : Value → Prop} {left right : Heap}

theorem visible (agrees : AgreesOn shown left right) {ref : ObjectRef}
    (seen : shown (.object ref)) :
    (left.object ref).visible = (right.object ref).visible := by
  rw [Object.visible_eq, Object.visible_eq, agrees.object ref seen]

theorem publicKeys (agrees : AgreesOn shown left right) {ref : ObjectRef}
    (seen : shown (.object ref)) :
    (left.object ref).publicKeys = (right.object ref).publicKeys := by
  rw [Object.publicKeys_eq, Object.publicKeys_eq, agrees.object ref seen]

theorem classOf? (agrees : AgreesOn shown left right) {ref : ObjectRef}
    (seen : shown (.object ref)) : left.classOf? ref = right.classOf? ref := by
  rw [Heap.classOf?, Heap.classOf?, Object.stored?, Object.stored?, Object.get?_classLinkName,
    Object.get?_classLinkName, agrees.object ref seen]

/-- A walk that goes on from a list opens a container on both sides. -/
theorem deeper_list (agrees : AgreesOn shown left right) {ref : ListRef}
    (seen : shown (.list ref)) {opened : List Container}
    (closed : opened.contains (.list ref) = false)
    {item : Value} (member : item ∈ (left.list ref).toList) :
    left.unopened (.list ref :: opened) < left.unopened opened ∧
      right.unopened (.list ref :: opened) < right.unopened opened := by
  have same : item ∈ (right.list ref).toList := agrees.list ref seen ▸ member
  exact ⟨unopened_cons_lt (list_mem_containers member) closed,
    unopened_cons_lt (list_mem_containers same) closed⟩

theorem deeper_object (agrees : AgreesOn shown left right) {ref : ObjectRef}
    (seen : shown (.object ref)) {opened : List Container}
    (closed : opened.contains (.object ref) = false) {entry : String × Property}
    (member : entry ∈ (left.object ref).visible) :
    left.unopened (.object ref :: opened) < left.unopened opened ∧
      right.unopened (.object ref :: opened) < right.unopened opened := by
  have mine := Object.mem_disclosed_of_visible member
  have theirs := Object.mem_disclosed_of_visible (agrees.visible seen ▸ member)
  exact ⟨unopened_cons_lt (object_mem_containers mine) closed,
    unopened_cons_lt (object_mem_containers theirs) closed⟩

/-- The class of an object is seen with it. -/
theorem shown_classOf? (agrees : AgreesOn shown left right) {ref : ObjectRef}
    (seen : shown (.object ref)) {cls : ClassRef} (linked : left.classOf? ref = some cls) :
    shown (.class cls) := by
  rw [Heap.classOf?, Object.stored?, Object.get?_classLinkName] at linked
  cases found : (left.object ref).disclosed.lookup classLinkName with
  | none =>
      rw [found] at linked
      cases linked
  | some property =>
      rcases List.lookup_eq_some_iff.mp found with ⟨before, after, split, -⟩
      have value := agrees.values ref seen (classLinkName, property)
        (split ▸ List.mem_append_right _ List.mem_cons_self)
      rw [found] at linked
      cases holds : property.value with
      | «class» link =>
          rw [holds] at value
          simp only [Option.map_some, holds, Option.some.injEq] at linked
          exact linked ▸ value
      | _ => simp [holds] at linked

end AgreesOn

end Heap

namespace Value

variable {shown : Value → Prop} {left right : Heap}

theorem plainText_agrees (agrees : Heap.AgreesOn shown left right) {value : Value}
    (seen : shown value) :
    value.plainText left = value.plainText right := by
  cases value with
  | function ref => rw [plainText, plainText, agrees.function ref seen]
  | «class» ref => rw [plainText, plainText, agrees.class ref seen]
  | _ => rfl

theorem nestedText_list (agrees : Heap.AgreesOn shown left right) {fuel other depth : Nat}
    {opened : List Container} {ref : ListRef} (seen : shown (.list ref))
    (inside : opened.contains (.list ref) = false → ∀ item ∈ (left.list ref).toList,
      nestedText left fuel (.list ref :: opened) depth item =
        nestedText right other (.list ref :: opened) depth item) :
    nestedText left (fuel + 1) opened depth (.list ref) =
      nestedText right (other + 1) opened depth (.list ref) := by
  simp only [nestedText]
  cases closed : opened.contains (.list ref) with
  | true => rw [if_pos rfl, if_pos rfl]
  | false => rw [← agrees.list ref seen, List.map_congr_left (inside closed)]

theorem nestedText_object (agrees : Heap.AgreesOn shown left right) {fuel other depth : Nat}
    {opened : List Container} {ref : ObjectRef} (seen : shown (.object ref))
    (inside : opened.contains (.object ref) = false → ∀ entry ∈ (left.object ref).visible,
      nestedText left fuel (.object ref :: opened) (depth + 1) entry.2.value =
        nestedText right other (.object ref :: opened) (depth + 1) entry.2.value) :
    nestedText left (fuel + 1) opened depth (.object ref) =
      nestedText right (other + 1) opened depth (.object ref) := by
  simp only [nestedText]
  cases closed : opened.contains (.object ref) with
  | true => rw [if_pos rfl, if_pos rfl]
  | false =>
      rw [← agrees.visible seen, ← agrees.classOf? seen, if_neg Bool.false_ne_true,
        if_neg Bool.false_ne_true]
      congr 1
      · cases linked : left.classOf? ref with
        | none => rfl
        | some cls => simp only [agrees.class cls (agrees.shown_classOf? seen linked)]
      · apply List.map_congr_left
        rintro ⟨key, property⟩ member
        have deep := inside closed (key, property) member
        have value := agrees.values ref seen _ (Object.mem_disclosed_of_visible member)
        dsimp only at deep value ⊢
        cases holds : property.value with
        | function f =>
            rw [holds] at value
            simp only [agrees.function f value]
        | _ =>
            rw [holds] at deep
            simp only [deep]

/-- With enough fuel on both sides, the texts are the same.  The induction is on the fuel of
one walk; the other one opens the same containers. -/
theorem nestedText_agrees (agrees : Heap.AgreesOn shown left right) (fuel : Nat) :
    ∀ (other : Nat) (opened : List Container) (depth : Nat) (value : Value),
      left.unopened opened < fuel → right.unopened opened < other → shown value →
      nestedText left fuel opened depth value = nestedText right other opened depth value := by
  induction fuel with
  | zero => exact fun _ _ _ _ impossible => absurd impossible (Nat.not_lt_zero _)
  | succ fuel ih =>
      intro other opened depth value enough enoughOther seen
      cases other with
      | zero => exact absurd enoughOther (Nat.not_lt_zero _)
      | succ other =>
          cases value with
          | list ref =>
              refine nestedText_list agrees seen fun closed item member => ?_
              rcases agrees.deeper_list seen closed member with ⟨deeper, deeperOther⟩
              exact ih other _ depth item (by omega) (by omega) (agrees.items ref seen item member)
          | object ref =>
              refine nestedText_object agrees seen fun closed entry member => ?_
              rcases agrees.deeper_object seen closed member with ⟨deeper, deeperOther⟩
              exact ih other _ (depth + 1) entry.2.value (by omega) (by omega)
                (agrees.values ref seen entry (Object.mem_disclosed_of_visible member))
          | function ref => exact plainText_agrees agrees seen
          | «class» ref => exact plainText_agrees agrees seen
          | _ => rfl

theorem toText_agrees (agrees : Heap.AgreesOn shown left right) {value : Value}
    (seen : shown value) : value.toText left = value.toText right := by
  rw [toText, toText, plainText_agrees agrees seen]
  have enough := left.unopened_le []
  have enoughOther := right.unopened_le []
  rw [nestedText_agrees agrees _ (right.containerCount + 2) [] 0 value (by omega) (by omega) seen]

/-! ## Trees -/

theorem mapM_congr {α β : Type} {f g : α → Except Cause β} {items : List α}
    (same : ∀ item ∈ items, f item = g item) : items.mapM f = items.mapM g := by
  calc items.mapM f = (items.map f).mapM id := by rw [List.mapM_map]; rfl
    _ = (items.map g).mapM id := by rw [List.map_congr_left same]
    _ = items.mapM g := by rw [List.mapM_map]; rfl

/-- With enough fuel on both sides, the trees are the same, or the same thing has none. -/
theorem toJsonFrom_agrees (agrees : Heap.AgreesOn shown left right) (fuel : Nat) :
    ∀ (other : Nat) (opened : List Container) (value : Value),
      left.unopened opened < fuel → right.unopened opened < other → shown value →
      toJsonFrom left fuel opened value = toJsonFrom right other opened value := by
  induction fuel with
  | zero => exact fun _ _ _ impossible => absurd impossible (Nat.not_lt_zero _)
  | succ fuel ih =>
      intro other opened value enough enoughOther seen
      cases other with
      | zero => exact absurd enoughOther (Nat.not_lt_zero _)
      | succ other =>
          cases value with
          | list ref =>
              simp only [toJsonFrom]
              cases closed : opened.contains (.list ref) with
              | true => rw [if_pos rfl, if_pos rfl]
              | false =>
                  have items : ∀ item ∈ (left.list ref).toList,
                      toJsonFrom left fuel (.list ref :: opened) item =
                        toJsonFrom right other (.list ref :: opened) item := by
                    intro item member
                    rcases agrees.deeper_list seen closed member with ⟨deeper, deeperOther⟩
                    exact ih other _ item (by omega) (by omega) (agrees.items ref seen item member)
                  rw [← agrees.list ref seen, mapM_congr items]
          | object ref =>
              simp only [toJsonFrom]
              cases closed : opened.contains (.object ref) with
              | true => rw [if_pos rfl, if_pos rfl]
              | false =>
                  rw [← agrees.visible seen, mapM_congr]
                  intro entry member
                  have visible := (List.mem_filter.mp member).1
                  rcases agrees.deeper_object seen closed visible with ⟨deeper, deeperOther⟩
                  rw [ih other _ entry.2.value (by omega) (by omega)
                    (agrees.values ref seen entry (Object.mem_disclosed_of_visible visible))]
          | _ => rfl

theorem toJson_agrees (agrees : Heap.AgreesOn shown left right) {value : Value}
    (seen : shown value) : value.toJson left = value.toJson right := by
  have enough := left.unopened_le []
  have enoughOther := right.unopened_le []
  exact toJsonFrom_agrees agrees _ _ [] value (by omega) (by omega) seen

end Value

/-! ## Keys -/

namespace Run

/-- The items of the list that a computation makes, or why it makes none. -/
def listed (action : Run Value) (machine : Machine) : Except Halt (Option (Array Value)) :=
  match action machine with
  | .ok (.list ref) after => .ok (some (after.heap.list ref))
  | .ok _ _ => .ok none
  | .error halt _ => .error halt

theorem objectArgument_eq (function : GlobalFunction) (value : Value) (span : Span)
    (machine : Machine) :
    objectArgument function [value] span machine =
      match machine.heap.members? value with
      | some ref => .ok ref machine
      | none =>
        .error (.fault ⟨.objectExpected function.name (some value.type), span⟩) machine := by
  show (match machine.heap.members? value with
    | some ref => (pure ref : Run ObjectRef)
    | none => fail (.objectExpected function.name (some value.type)) span) machine = _
  cases machine.heap.members? value <;> rfl

end Run

namespace Evaluator

theorem listed_objectKeys (ev : Evaluator) (value : Value) (scope : FrameRef) (span : Span)
    (machine : Machine) :
    (ev.runGlobal .objectKeys [value] scope span).listed machine =
      match machine.heap.members? value with
      | some ref =>
        .ok (some ((machine.heap.object ref).publicKeys.map Value.text).toArray)
      | none =>
        .error (.fault
          ⟨.objectExpected GlobalFunction.objectKeys.name (some value.type), span⟩) := by
  have asked := Run.objectArgument_eq .objectKeys value span machine
  unfold Run.listed
  simp only [runGlobal, bind, EStateM.bind, asked]
  cases machine.heap.members? value with
  | none => rfl
  | some ref =>
      have made := Heap.list_allocList machine.heap
        ((machine.heap.object ref).publicKeys.map Value.text).toArray
      exact congrArg (fun items => Except.ok (some items)) made

end Evaluator

namespace Heap

variable {shown : Value → Prop}

theorem AgreesOn.members? {left right : Heap} (agrees : AgreesOn shown left right) {value : Value}
    (seen : shown value) : left.members? value = right.members? value ∧
      ∀ ref, left.members? value = some ref → shown (.object ref) := by
  cases value with
  | object ref => exact ⟨rfl, fun _ found => Option.some.inj found ▸ seen⟩
  | «class» ref =>
      refine ⟨?_, fun _ found => Option.some.inj found ▸ agrees.statics ref seen⟩
      rw [Heap.members?, Heap.members?, agrees.class ref seen]
  | _ => exact ⟨rfl, fun _ impossible => nomatch impossible⟩

/-- Neither the text of a value, nor its tree or why it has none, nor the keys of an object
depend on private properties. -/
theorem AgreesOn.conceals {first second : Machine} (agrees : AgreesOn shown first.heap second.heap)
    (value : Value) (seen : shown value) :
    value.toText first.heap = value.toText second.heap ∧
    value.toJson first.heap = value.toJson second.heap ∧
    ∀ (ev : Evaluator) (scope : FrameRef) (span : Span),
      (ev.runGlobal .objectKeys [value] scope span).listed first =
        (ev.runGlobal .objectKeys [value] scope span).listed second := by
  refine ⟨Value.toText_agrees agrees seen, Value.toJson_agrees agrees seen, ?_⟩
  intro ev scope span
  rcases agrees.members? seen with ⟨same, inside⟩
  rw [Evaluator.listed_objectKeys, Evaluator.listed_objectKeys, ← same]
  cases found : first.heap.members? value with
  | none => rfl
  | some ref => simp only [agrees.publicKeys (inside ref found)]

/-- An object that contains itself, with different secrets. -/
theorem AgreesOn.conceals_cycle :
    let first : Heap := { objects := #[{ properties := ⟨[("self", { value := .object ⟨0⟩ }),
      ("pin", { value := .number 1, access := { isPrivate := true } })]⟩ }] }
    let second : Heap := {
      lists := #[#[.object ⟨0⟩]]
      objects := #[{ properties := ⟨[
        ("key", { value := .list ⟨0⟩, access := { isPrivate := true } }),
        ("self", { value := .object ⟨0⟩ })]⟩ }] }
    AgreesOn (fun value => value = .object ⟨0⟩) first second ∧
    (Value.object ⟨0⟩).toText first = (Value.object ⟨0⟩).toText second := by
  intro first second
  have agrees : AgreesOn (fun value => value = .object ⟨0⟩) first second := by
    constructor
    · rintro ref seen
      cases seen
    · rintro ref seen
      cases seen
    · rintro ref ⟨⟩
      rfl
    · rintro ref ⟨⟩ entry member
      cases member with
      | head => rfl
      | tail _ impossible => cases impossible
    · rintro ref seen
      cases seen
    · rintro ref seen
      cases seen
    · rintro ref seen
      cases seen
  refine ⟨agrees, ?_⟩
  have shows : AgreesOn (fun value => value = .object ⟨0⟩) ({ heap := first } : Machine).heap
    ({ heap := second } : Machine).heap := agrees
  exact (shows.conceals _ rfl).1

end Heap

end Hati
