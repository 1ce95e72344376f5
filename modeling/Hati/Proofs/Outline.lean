import Hati.Proofs.Concealment
import Mathlib

namespace Hati

/-!
# Outlines of values

Rendering and serialization walk along the same graph.  From a list it leads to the items, and
from an object to the values of the properties that are shown, except for functions.  Parts of
a value may be shared, so the graph need not be a tree, and it may have cycles.

A walk knows the containers that it is inside of.  Where it meets one of them again it leaves a
mark and does not go on, so what it sees of a value is a tree, the outline.  The tree is finite,
since a container that is gone into was not open before, and the heap has only so many of them.
Sharing cannot be seen in it: what is met for the second time is outlined again, unless it is
met inside itself.
-/

/-- The value that is a reference to the container. -/
def Container.value : Container → Value
  | list ref => .list ref
  | object ref => .object ref

theorem Container.eq_list {container : Container} {ref : ListRef}
    (same : container.value = .list ref) : container = .list ref := by
  cases container <;> cases same
  rfl

theorem Container.eq_object {container : Container} {ref : ObjectRef}
    (same : container.value = .object ref) : container = .object ref := by
  cases container <;> cases same
  rfl

/-- Among pairs of as many things, each thing has a partner. -/
theorem List.exists_mem_zip {α β : Type} {as : List α} {bs : List β}
    (size : as.length = bs.length) {a : α} (member : a ∈ as) : ∃ b, (a, b) ∈ as.zip bs := by
  obtain ⟨index, bound, rfl⟩ := List.getElem_of_mem member
  refine ⟨bs[index], List.mem_iff_getElem.mpr ⟨index, ?_, List.getElem_zip⟩⟩
  rw [List.length_zip]
  omega

namespace Heap

/-! ## What stands inside a value -/

/-- The properties of an object that a walk goes into. -/
def fields (heap : Heap) (ref : ObjectRef) : List (String × Property) :=
  (heap.object ref).visible.filter fun (_, property) => property.value.type != .function

/-- The second value stands directly inside the first one. -/
inductive Nests (heap : Heap) : Value → Value → Prop where
  | item {ref : ListRef} {item : Value} (member : item ∈ (heap.list ref).toList) :
    Nests heap (.list ref) item
  | field {ref : ObjectRef} {entry : String × Property} (member : entry ∈ heap.fields ref) :
    Nests heap (.object ref) entry.2.value

/-- The second value is the first one, or stands somewhere inside it. -/
abbrev Reaches (heap : Heap) : Value → Value → Prop :=
  Relation.ReflTransGen heap.Nests

/-- The second value stands somewhere inside the first one. -/
abbrev Encloses (heap : Heap) : Value → Value → Prop :=
  Relation.TransGen heap.Nests

/-- The value is, or has inside it, a value that stands inside itself. -/
def IsCyclic (heap : Heap) (value : Value) : Prop :=
  ∃ inner, heap.Reaches value inner ∧ heap.Encloses inner inner

variable {heap : Heap}

theorem IsCyclic.outer {outer inner : Value} (nests : heap.Nests outer inner)
    (cyclic : heap.IsCyclic inner) : heap.IsCyclic outer := by
  obtain ⟨looped, reached, loop⟩ := cyclic
  exact ⟨looped, .head nests reached, loop⟩

/-- What stands around a container stands around what is inside it, as the container does. -/
theorem encloses_cons (container : Container) {opened : List Container} {inner : Value}
    (nests : heap.Nests container.value inner)
    (around : ∀ outer ∈ opened, heap.Encloses outer.value container.value) :
    ∀ outer ∈ container :: opened, heap.Encloses outer.value inner :=
  List.forall_mem_cons.mpr ⟨.single nests, fun outer isOpen => (around outer isOpen).tail nests⟩

/-- A value without cycles does not stand inside itself. -/
theorem not_encloses_self {value : Value} (acyclic : ¬heap.IsCyclic value) :
    ¬heap.Encloses value value :=
  fun loop => acyclic ⟨value, .refl, loop⟩

/-- A container without cycles is not among those that it stands inside of. -/
theorem closed_of_encloses (container : Container) {opened : List Container}
    (acyclic : ¬heap.IsCyclic container.value)
    (around : ∀ outer ∈ opened, heap.Encloses outer.value container.value) : container ∉ opened :=
  fun isOpen => not_encloses_self acyclic (around container isOpen)

/-- A cycle is met inside something that the value holds: if the value itself is on the cycle,
what it holds leads back to it. -/
theorem IsCyclic.inner {outer : Value} (cyclic : heap.IsCyclic outer) :
    ∃ inner, heap.Nests outer inner ∧ heap.IsCyclic inner := by
  obtain ⟨looped, reached, loop⟩ := cyclic
  rcases Relation.ReflTransGen.cases_head reached with rfl | ⟨inner, nests, further⟩
  · obtain ⟨inner, nests, back⟩ := Relation.TransGen.head'_iff.mp loop
    exact ⟨inner, nests, outer, back, loop⟩
  · exact ⟨inner, nests, looped, further, loop⟩

end Heap

/-! ## Outlines -/

/-- What a walk sees of a value. -/
inductive Outline where
  /-- A value that is no container. -/
  | plain (value : Value)
  /-- A container that is met inside itself. -/
  | mark (container : Container)
  | list (ref : ListRef) (items : List Outline)
  /-- Functions among the properties are seen, but not gone into. -/
  | object (ref : ObjectRef) (entries : List (String × Access × Outline))

namespace Outline

/-- The value that is seen. -/
def value : Outline → Value
  | plain value => value
  | mark container => container.value
  | list ref _ => .list ref
  | object ref _ => .object ref

def isMark : Outline → Bool
  | mark _ => true
  | _ => false

/-- The outline has the part at the end of a route.  A route lists the containers that it goes
through, innermost first. -/
inductive HasPart (outline : Outline) : List Container → Outline → Prop where
  | whole : HasPart outline [] outline
  | item {route : List Container} {ref : ListRef} {items : List Outline} {item : Outline}
    (outer : HasPart outline route (.list ref items)) (member : item ∈ items) :
    HasPart outline (.list ref :: route) item
  | entry {route : List Container} {ref : ObjectRef} {entries : List (String × Access × Outline)}
    {entry : String × Access × Outline} (outer : HasPart outline route (.object ref entries))
    (member : entry ∈ entries) : HasPart outline (.object ref :: route) entry.2.2

/-- The outline is that of the value: what is seen inside a container is what it holds, and a
mark stands exactly where a container is met on a route through itself. -/
structure Depicts (heap : Heap) (outline : Outline) (value : Value) : Prop where
  whole : outline.value = value
  marks : ∀ route part, outline.HasPart route part →
    (part.isMark = true ↔ ∃ container ∈ route, container.value = part.value)
  plain : ∀ route value, outline.HasPart route (.plain value) → value.isContainer = false
  items : ∀ route ref items, outline.HasPart route (.list ref items) →
    items.map Outline.value = (heap.list ref).toList
  entries : ∀ route ref entries, outline.HasPart route (.object ref entries) →
    entries.map (fun entry => (entry.1, entry.2.1, entry.2.2.value)) =
      (heap.object ref).visible.map fun entry => (entry.1, entry.2.access, entry.2.value)

end Outline

namespace Heap

/-! ## Walks -/

/-- What a walk sees of a value inside `opened` containers. -/
def outlineFrom (heap : Heap) (opened : List Container) (value : Value) : Outline :=
  match value with
  | .list ref =>
    if _ : opened.contains (.list ref) = false then
      .list ref ((heap.list ref).toList.attach.map fun item =>
        outlineFrom heap (.list ref :: opened) item.1)
    else .mark (.list ref)
  | .object ref =>
    if _ : opened.contains (.object ref) = false then
      .object ref ((heap.object ref).visible.attach.map fun entry =>
        (entry.1.1, entry.1.2.access, outlineFrom heap (.object ref :: opened) entry.1.2.value))
    else .mark (.object ref)
  | other => .plain other
-- The containers that are still to be opened become fewer.
termination_by heap.unopened opened
decreasing_by
  · exact unopened_cons_lt (list_mem_containers item.2) ‹_›
  · exact unopened_cons_lt (object_mem_containers (Object.mem_disclosed_of_visible entry.2)) ‹_›

def outline (heap : Heap) (value : Value) : Outline :=
  heap.outlineFrom [] value

variable {heap : Heap} {opened : List Container} {value : Value}

/-- The ways in which a walk treats a value. -/
inductive Outlines (heap : Heap) (opened : List Container) : Value → Outline → Prop where
  | plain {value : Value} (plain : value.isContainer = false) :
    Outlines heap opened value (.plain value)
  | mark {container : Container} {value : Value} (isOpen : container ∈ opened)
    (seen : container.value = value) : Outlines heap opened value (.mark container)
  | list {ref : ListRef} (closed : .list ref ∉ opened) :
    Outlines heap opened (.list ref)
      (.list ref ((heap.list ref).toList.map (heap.outlineFrom (.list ref :: opened))))
  | object {ref : ObjectRef} (closed : .object ref ∉ opened) :
    Outlines heap opened (.object ref)
      (.object ref ((heap.object ref).visible.map fun entry =>
        (entry.1, entry.2.access, heap.outlineFrom (.object ref :: opened) entry.2.value)))

theorem outlines_outlineFrom (heap : Heap) (opened : List Container) (value : Value) :
    heap.Outlines opened value (heap.outlineFrom opened value) := by
  cases value with
  | list ref =>
      rw [outlineFrom]
      split
      · rename_i closed
        rw [List.attach_map_val]
        exact .list fun isOpen => by simp [isOpen] at closed
      · rename_i isOpen
        exact .mark (by simpa using isOpen) rfl
  | object ref =>
      rw [outlineFrom]
      split
      · rename_i closed
        rw [List.attach_map_val (f := fun entry : String × Property =>
          (entry.1, entry.2.access, heap.outlineFrom (.object ref :: opened) entry.2.value))]
        exact .object fun isOpen => by simp [isOpen] at closed
      · rename_i isOpen
        exact .mark (by simpa using isOpen) rfl
  | _ =>
      rw [outlineFrom]
      · exact .plain rfl
      all_goals nofun

theorem outlineFrom_plain (plain : value.isContainer = false) :
    heap.outlineFrom opened value = .plain value := by
  have outlines := heap.outlines_outlineFrom opened value
  generalize heap.outlineFrom opened value = outline at outlines
  cases outlines with
  | plain plain => rfl
  | @mark container _ isOpen seen =>
      subst seen
      cases container <;> cases plain
  | list closed => cases plain
  | object closed => cases plain

theorem outlineFrom_list {ref : ListRef} (closed : .list ref ∉ opened) :
    heap.outlineFrom opened (.list ref) =
      .list ref ((heap.list ref).toList.map (heap.outlineFrom (.list ref :: opened))) := by
  have outlines := heap.outlines_outlineFrom opened (.list ref)
  generalize heap.outlineFrom opened (.list ref) = outline at outlines
  cases outlines with
  | plain plain => cases plain
  | mark isOpen seen => exact absurd (Container.eq_list seen ▸ isOpen) closed
  | list closed => rfl

theorem outlineFrom_object {ref : ObjectRef} (closed : .object ref ∉ opened) :
    heap.outlineFrom opened (.object ref) =
      .object ref ((heap.object ref).visible.map fun entry =>
        (entry.1, entry.2.access, heap.outlineFrom (.object ref :: opened) entry.2.value)) := by
  have outlines := heap.outlines_outlineFrom opened (.object ref)
  generalize heap.outlineFrom opened (.object ref) = outline at outlines
  cases outlines with
  | plain plain => cases plain
  | mark isOpen seen => exact absurd (Container.eq_object seen ▸ isOpen) closed
  | object closed => rfl

theorem Outlines.value_eq {outline : Outline} (outlines : heap.Outlines opened value outline) :
    outline.value = value := by
  cases outlines with
  | mark isOpen seen => exact seen
  | _ => rfl

theorem Outlines.isMark_iff {outline : Outline} (outlines : heap.Outlines opened value outline) :
    outline.isMark = true ↔ ∃ container ∈ opened, container.value = value := by
  cases outlines with
  | plain plain =>
      refine iff_of_false nofun ?_
      rintro ⟨container, -, rfl⟩
      cases container <;> cases plain
  | mark isOpen seen => exact iff_of_true rfl ⟨_, isOpen, seen⟩
  | list closed =>
      refine iff_of_false nofun ?_
      rintro ⟨container, isOpen, same⟩
      exact closed (Container.eq_list same ▸ isOpen)
  | object closed =>
      refine iff_of_false nofun ?_
      rintro ⟨container, isOpen, same⟩
      exact closed (Container.eq_object same ▸ isOpen)

@[simp]
theorem value_outlineFrom (heap : Heap) (opened : List Container) (value : Value) :
    (heap.outlineFrom opened value).value = value :=
  (outlines_outlineFrom heap opened value).value_eq

/-- Each part of an outline is what a walk sees inside the containers on the route. -/
theorem hasPart_outlines {route : List Container} {part : Outline}
    (hasPart : (heap.outlineFrom opened value).HasPart route part) :
    heap.Outlines (route ++ opened) part.value part := by
  induction hasPart with
  | whole =>
      rw [value_outlineFrom]
      exact outlines_outlineFrom heap opened value
  | item outer member ih =>
      cases ih with
      | list closed =>
          obtain ⟨item, -, rfl⟩ := List.mem_map.mp member
          rw [value_outlineFrom]
          exact outlines_outlineFrom heap _ item
  | entry outer member ih =>
      cases ih with
      | object closed =>
          obtain ⟨entry, -, rfl⟩ := List.mem_map.mp member
          rw [value_outlineFrom]
          exact outlines_outlineFrom heap _ entry.2.value

theorem outline_depicts (heap : Heap) (value : Value) :
    (heap.outline value).Depicts heap value where
  whole := value_outlineFrom heap [] value
  marks route part hasPart := by
    have outlines := hasPart_outlines hasPart
    rw [List.append_nil] at outlines
    exact outlines.isMark_iff
  plain route inner hasPart := by
    cases hasPart_outlines hasPart with
    | plain plain => exact plain
  items route ref items hasPart := by
    cases hasPart_outlines hasPart with
    | list closed => simp [Function.comp_def]
  entries route ref entries hasPart := by
    cases hasPart_outlines hasPart with
    | object closed => simp [Function.comp_def]

end Heap

namespace Outline

variable {heap : Heap} {outline : Outline} {value : Value}

/-- The values inside a container that a walk goes through. -/
theorem Depicts.nests_item (depicts : outline.Depicts heap value) {route : List Container}
    {ref : ListRef} {items : List Outline} (outer : outline.HasPart route (.list ref items))
    {item : Outline} (member : item ∈ items) : heap.Nests (.list ref) item.value := by
  refine .item ?_
  rw [← depicts.items route ref items outer]
  exact List.mem_map_of_mem member

theorem Depicts.nests_entry (depicts : outline.Depicts heap value) {route : List Container}
    {ref : ObjectRef} {entries : List (String × Access × Outline)}
    (outer : outline.HasPart route (.object ref entries)) {entry : String × Access × Outline}
    (member : entry ∈ entries) (noFunction : entry.2.2.value.type ≠ .function) :
    heap.Nests (.object ref) entry.2.2.value := by
  have seen := List.mem_map_of_mem (f := fun entry : String × Access × Outline =>
    (entry.1, entry.2.1, entry.2.2.value)) member
  rw [depicts.entries route ref entries outer] at seen
  obtain ⟨shown, visible, same⟩ := List.mem_map.mp seen
  obtain ⟨-, -, value⟩ : shown.1 = entry.1 ∧ shown.2.access = entry.2.1 ∧
      shown.2.value = entry.2.2.value := by simpa using same
  rw [← value] at noFunction ⊢
  exact .field (List.mem_filter.mpr ⟨visible, by simpa using noFunction⟩)

/-- Every container on a route holds, at some depth, what is at its end. -/
theorem Depicts.encloses (depicts : outline.Depicts heap value) {route : List Container}
    {part : Outline} (hasPart : outline.HasPart route part) :
    part.value.type ≠ .function → heap.Reaches value part.value ∧
      ∀ container ∈ route, heap.Encloses container.value part.value := by
  induction hasPart with
  | whole =>
      intro _
      rw [depicts.whole]
      exact ⟨.refl, nofun⟩
  | @item route ref items item outer member ih =>
      intro _
      obtain ⟨reached, around⟩ := ih nofun
      have nests := depicts.nests_item outer member
      exact ⟨reached.tail nests, Heap.encloses_cons (.list ref) nests around⟩
  | @entry route ref entries entry outer member ih =>
      intro noFunction
      obtain ⟨reached, around⟩ := ih nofun
      have nests := depicts.nests_entry outer member noFunction
      exact ⟨reached.tail nests, Heap.encloses_cons (.object ref) nests around⟩

/-- Whatever a container holds is seen in it. -/
theorem Depicts.exists_part (depicts : outline.Depicts heap value) {route : List Container}
    {part : Outline} (hasPart : outline.HasPart route part) (unmarked : part.isMark = false)
    {inner : Value} (nests : heap.Nests part.value inner) :
    ∃ route seen, outline.HasPart route seen ∧ seen.value = inner ∧ sizeOf seen < sizeOf part := by
  cases part with
  | plain value =>
      have plain := depicts.plain route value hasPart
      cases nests <;> cases plain
  | mark container => cases unmarked
  | list ref items =>
      cases nests with
      | item member =>
          rw [← depicts.items route ref items hasPart] at member
          obtain ⟨seen, among, same⟩ := List.mem_map.mp member
          have smaller := List.sizeOf_lt_of_mem among
          exact ⟨_, seen, .item hasPart among, same, by simp; omega⟩
  | object ref entries =>
      cases nests with
      | @field _ field member =>
          have visible := List.mem_map_of_mem (f := fun entry : String × Property =>
            (entry.1, entry.2.access, entry.2.value)) (List.mem_of_mem_filter member)
          rw [← depicts.entries route ref entries hasPart] at visible
          obtain ⟨⟨key, access, seen⟩, among, same⟩ := List.mem_map.mp visible
          have smaller := List.sizeOf_lt_of_mem among
          refine ⟨_, seen, .entry hasPart among, ?_, ?_⟩
          · simpa using congrArg (·.2.2) same
          · simp at smaller ⊢
            omega

/-- Every cycle is marked.  The induction is on the size of the part that has the cycle. -/
theorem Depicts.exists_mark (depicts : outline.Depicts heap value) (size : Nat) :
    ∀ route part, outline.HasPart route part → sizeOf part < size → heap.IsCyclic part.value →
      ∃ route part, outline.HasPart route part ∧ part.isMark = true := by
  induction size with
  | zero => exact fun _ _ _ impossible => absurd impossible (Nat.not_lt_zero _)
  | succ size ih =>
      intro route part hasPart bounded cyclic
      cases marked : part.isMark with
      | true => exact ⟨route, part, hasPart, marked⟩
      | false =>
          obtain ⟨inner, nests, further⟩ := cyclic.inner
          obtain ⟨route, seen, hasSeen, rfl, smaller⟩ := depicts.exists_part hasPart marked nests
          exact ih route seen hasSeen (by omega) further

/-- What is marked stands inside itself. -/
theorem Depicts.encloses_mark (depicts : outline.Depicts heap value) {route : List Container}
    {part : Outline} (hasPart : outline.HasPart route part) (isMark : part.isMark = true) :
    heap.Reaches value part.value ∧ heap.Encloses part.value part.value := by
  obtain ⟨container, onRoute, same⟩ := (depicts.marks route part hasPart).mp isMark
  have noFunction : part.value.type ≠ .function := by
    rw [← same]
    cases container <;> nofun
  obtain ⟨reached, around⟩ := depicts.encloses hasPart noFunction
  exact ⟨reached, same ▸ around container onRoute⟩

/-- Only cyclic values have marks. -/
theorem Depicts.isCyclic (depicts : outline.Depicts heap value) {route : List Container}
    {part : Outline} (hasPart : outline.HasPart route part) (isMark : part.isMark = true) :
    heap.IsCyclic value :=
  ⟨part.value, depicts.encloses_mark hasPart isMark⟩

/-- A value is cyclic exactly if its outline has a mark. -/
theorem Depicts.isCyclic_iff (depicts : outline.Depicts heap value) : heap.IsCyclic value ↔
    ∃ route part, outline.HasPart route part ∧ part.isMark = true := by
  constructor
  · intro cyclic
    exact depicts.exists_mark _ [] outline .whole (Nat.lt_succ_self _) (depicts.whole.symm ▸ cyclic)
  · rintro ⟨route, part, hasPart, isMark⟩
    exact depicts.isCyclic hasPart isMark

end Outline

end Hati
