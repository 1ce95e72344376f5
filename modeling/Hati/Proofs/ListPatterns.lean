import Hati.Interpreter
import Hati.Proofs.Allocation
import Hati.Proofs.Effect

namespace Hati

/-!
# Lists taken apart

A list pattern and the list are gone through side by side.  A name is given the item at its own
place in the pattern, or null if the list is too short, and a hole passes over an item.  A rest
is given a new list of the items that are left.  Since a rest is accepted at the end only, at
most one list is made, and every slot in front of the rest stands for one item.

So a pattern without holes that ends in a rest loses nothing of the list: the values of the names,
followed by the items of the rest, are the list again, filled up with null if it was too short
for the names.
-/

namespace ListSlot

/-- Only the last slot may be a rest. -/
def RestLast (slots : List ListSlot) : Prop :=
  ∀ slot ∈ slots.dropLast, slot.isRest = false

variable {slot : ListSlot} {slots : List ListSlot}

theorem RestLast.tail (restLast : RestLast (slot :: slots)) : RestLast slots := by
  cases slots with
  | nil => exact nofun
  | cons next slots => exact fun other member => restLast other (List.mem_cons_of_mem slot member)

theorem RestLast.eq_nil {name : String} (restLast : RestLast (.rest name :: slots)) :
    slots = [] := by
  cases slots with
  | nil => rfl
  | cons next slots => cases restLast (.rest name) List.mem_cons_self

/-- Slots without a hole and without a rest are names. -/
theorem eq_map_bind : ∀ {slots : List ListSlot}, (∀ slot ∈ slots, slot.isRest = false) →
    .hole ∉ slots → ∃ names : List String, slots = names.map .bind
  | [], _, _ => ⟨[], rfl⟩
  | slot :: slots, noRest, noHole => by
      obtain ⟨names, rfl⟩ := eq_map_bind
        (fun other member => noRest other (List.mem_cons_of_mem slot member))
        fun member => noHole (List.mem_cons_of_mem slot member)
      cases slot with
      | hole => exact absurd List.mem_cons_self noHole
      | bind name => exact ⟨name :: names, rfl⟩
      | rest name => cases noRest (.rest name) List.mem_cons_self

end ListSlot

/-- A list pattern is accepted exactly if all its targets have names and only its last slot may
be a rest. -/
theorem Pattern.defect?_list_eq_none {slots : List ListSlot} :
    (list slots).defect? = none ↔
      (∀ name ∈ (list slots).boundNames, name ≠ "") ∧ ListSlot.RestLast slots := by
  have named : (list slots).boundNames.any String.isEmpty = false ↔
      ∀ name ∈ (list slots).boundNames, name ≠ "" := by
    simp [List.any_eq_false, String.isEmpty_iff]
  have ordered : slots.dropLast.any ListSlot.isRest = false ↔ ListSlot.RestLast slots := by
    simp [List.any_eq_false, ListSlot.RestLast]
  rw [← named, ← ordered, defect?]
  cases (list slots).boundNames.any String.isEmpty with
  | true => simp
  | false => cases slots.dropLast.any ListSlot.isRest <;> simp

namespace Heap

/-- The slots of a list pattern were given the items at their places, and nothing else was
changed. -/
structure TakesApart (before after : Heap) (slots : List ListSlot) (items : List Value)
    (isConstant : Bool) (scope : FrameRef) : Prop where
  elsewhere : after = { before with frames := after.frames, lists := after.lists }
  count : after.frames.size = before.frames.size
  frames : ∀ other, other ≠ scope → after.frame other = before.frame other
  parent : (after.frame scope).parent = (before.frame scope).parent
  untouched : ∀ name ∉ (Pattern.list slots).boundNames,
    after.localBinding? scope name = before.localBinding? scope name
  declared : ∀ name ∈ (Pattern.list slots).boundNames,
    ∃ value, after.localBinding? scope name = some { value, isConstant }
  item : ∀ (position : Nat) (name : String), slots[position]? = some (.bind name) →
    after.localBinding? scope name =
      some { value := items[position]?.getD .null, isConstant }
  /-- A rest refers to a list that was not there before. -/
  rest : ∀ (position : Nat) (name : String), slots[position]? = some (.rest name) →
    after.localBinding? scope name =
      some { value := .list ⟨before.lists.size⟩, isConstant } ∧
    after.lists = before.lists.push (items.drop position).toArray
  withoutRest : (∀ slot ∈ slots, slot.isRest = false) → after.lists = before.lists

variable {before after : Heap} {slots : List ListSlot} {items : List Value} {isConstant : Bool}
  {scope : FrameRef} {name : String}

/-! ## Slot by slot -/

theorem TakesApart.nil : before.TakesApart before [] items isConstant scope where
  elsewhere := rfl
  count := rfl
  frames _ _ := rfl
  parent := rfl
  untouched _ _ := rfl
  declared := nofun
  item := nofun
  rest := nofun
  withoutRest _ := rfl

theorem TakesApart.hole (taken : before.TakesApart after slots items.tail isConstant scope) :
    before.TakesApart after (.hole :: slots) items isConstant scope where
  elsewhere := taken.elsewhere
  count := taken.count
  frames := taken.frames
  parent := taken.parent
  untouched := taken.untouched
  declared := taken.declared
  item
    | 0, _, here => nomatch here
    | position + 1, name, there => by
        rw [taken.item position name there, List.getElem?_tail]
  rest
    | 0, _, here => nomatch here
    | position + 1, name, there => by
        rw [← List.drop_tail]
        exact taken.rest position name there
  withoutRest noRest :=
    taken.withoutRest fun slot member => noRest slot (List.mem_cons_of_mem .hole member)

/-- The slots behind a name do not bind it again, so it keeps the item that it was given. -/
theorem TakesApart.bind (inside : before.HasFrame scope)
    (distinct : name ∉ (Pattern.list slots).boundNames)
    (taken : (before.bind scope name { value := items.headD .null, isConstant }).TakesApart after
      slots items.tail isConstant scope) :
    before.TakesApart after (.bind name :: slots) items isConstant scope := by
  have bound : after.localBinding? scope name =
      some { value := items.headD .null, isConstant } := by
    rw [taken.untouched name distinct, localBinding?_bind inside, if_pos ⟨rfl, rfl⟩]
  exact {
    elsewhere := taken.elsewhere
    count := taken.count.trans Array.size_modify
    frames := fun other apart => (taken.frames other apart).trans (frame_bind_of_ne apart ..)
    parent := taken.parent.trans (parent_frame_bind ..)
    untouched := fun other absent => by
      have apart : other ≠ name ∧ other ∉ (Pattern.list slots).boundNames :=
        not_or.mp fun member => absent (List.mem_cons.mpr member)
      rw [taken.untouched other apart.2, localBinding?_bind inside,
        if_neg fun same => apart.1 same.2]
    declared := fun other member => by
      rcases List.mem_cons.mp member with rfl | further
      · exact ⟨_, bound⟩
      · exact taken.declared other further
    item
      | 0, other, here => by
          cases here
          rw [bound, List.headD_eq_head?_getD, List.head?_eq_getElem?]
      | position + 1, other, there => by
          rw [taken.item position other there, List.getElem?_tail]
    rest
      | 0, _, here => nomatch here
      | position + 1, other, there => by
          rw [← List.drop_tail]
          exact taken.rest position other there
    withoutRest := fun noRest =>
      taken.withoutRest fun slot member => noRest slot (List.mem_cons_of_mem _ member) }

theorem TakesApart.rest_alone (inside : before.HasFrame scope) (name : String)
    (items : List Value) (isConstant : Bool) :
    before.TakesApart
      ((before.allocList items.toArray).2.bind scope name
        { value := .list (before.allocList items.toArray).1, isConstant })
      [.rest name] items isConstant scope := by
  have allocated : (before.allocList items.toArray).2.HasFrame scope := inside
  exact {
    elsewhere := rfl
    count := Array.size_modify
    frames := fun other apart => frame_bind_of_ne apart ..
    parent := parent_frame_bind ..
    untouched := fun other absent => by
      rw [localBinding?_bind allocated, if_neg fun same => absent (List.mem_singleton.mpr same.2)]
      rfl
    declared := fun other member => by
      obtain rfl := List.mem_singleton.mp member
      exact ⟨_, by rw [localBinding?_bind allocated, if_pos ⟨rfl, rfl⟩]⟩
    item
      | 0, _, here => nomatch here
    rest
      | 0, other, here => by
          cases here
          exact ⟨by rw [localBinding?_bind allocated, if_pos ⟨rfl, rfl⟩]; rfl, rfl⟩
    withoutRest := fun noRest => nomatch noRest (.rest name) List.mem_cons_self }

end Heap

/-- The induction is on the slots: each binds its own item, and the ones behind it bind the
others. -/
theorem Run.bindSlots_takesApart {scope : FrameRef} (isConstant : Bool) {slots : List ListSlot} :
    ∀ (items : List Value) (machine : Machine), ListSlot.RestLast slots →
      (Pattern.list slots).boundNames.Nodup → machine.heap.HasFrame scope →
      ∃ heap, bindSlots scope isConstant slots items machine = .ok () { machine with heap } ∧
        machine.heap.TakesApart heap slots items isConstant scope := by
  induction slots with
  | nil => exact fun _ machine _ _ _ => ⟨machine.heap, rfl, .nil⟩
  | cons slot slots ih =>
      intro items machine restLast distinct inside
      cases slot with
      | hole =>
          obtain ⟨heap, runs, taken⟩ := ih items.tail machine restLast.tail distinct inside
          exact ⟨heap, runs, taken.hole⟩
      | bind name =>
          obtain ⟨absent, distinct⟩ := List.nodup_cons.mp distinct
          let bound := machine.heap.bind scope name { value := items.headD .null, isConstant }
          have still : bound.HasFrame scope := Nat.lt_of_lt_of_eq inside Array.size_modify.symm
          obtain ⟨heap, runs, taken⟩ := ih items.tail { machine with heap := bound } restLast.tail
            distinct still
          exact ⟨heap, runs, taken.bind inside absent⟩
      | rest name =>
          obtain rfl := restLast.eq_nil
          exact ⟨_, rfl, .rest_alone inside name items isConstant⟩

/-! ## Put together again -/

section Padding

variable {items : List Value} {count position : Nat}

theorem getElem?_rightpad_null (inside : position < count) :
    (items.rightpad count .null)[position]? = some (items[position]?.getD .null) := by
  rw [List.rightpad, List.getElem?_append]
  split
  · rename_i present
    rw [List.getElem?_eq_getElem present, Option.getD_some]
  · rename_i absent
    rw [List.getElem?_replicate, if_pos (by omega), List.getElem?_eq_none (by omega),
      Option.getD_none]

theorem drop_rightpad_null : (items.rightpad count .null).drop count = items.drop count := by
  rw [List.rightpad, List.drop_append, List.drop_replicate, Nat.sub_self, List.replicate_zero,
    List.append_nil]

end Padding

namespace Heap

variable {before after : Heap} {items : List Value} {isConstant : Bool} {scope : FrameRef}
  {name : String} {front : List ListSlot}

/-- Names in front of a rest hold the first items, with null in place of those that the list does
not have. -/
theorem TakesApart.names_eq {names : List String} {back : List ListSlot}
    (taken : before.TakesApart after (names.map .bind ++ back) items isConstant scope) :
    names.map (after.localBinding? scope) =
      ((items.rightpad names.length .null).take names.length).map
        fun value => some { value, isConstant } := by
  refine List.ext_getElem? fun position => ?_
  rw [List.getElem?_map, List.getElem?_map, List.getElem?_take]
  split
  · rename_i inside
    rw [List.getElem?_eq_getElem inside, getElem?_rightpad_null inside, Option.map_some,
      Option.map_some]
    refine congrArg some (taken.item position names[position] ?_)
    rw [List.getElem?_append_left (by simpa using inside), List.getElem?_map,
      List.getElem?_eq_getElem inside, Option.map_some]
  · rename_i outside
    rw [List.getElem?_eq_none (Nat.le_of_not_lt outside)]
    rfl

/-- Where the items that the names hold end, those of the rest begin. -/
theorem TakesApart.reassembles
    (taken : before.TakesApart after (front ++ [.rest name]) items isConstant scope)
    (noRest : ∀ slot ∈ front, slot.isRest = false) (noHole : .hole ∉ front) :
    ∃ values rest,
      (Pattern.list front).boundNames.map (after.localBinding? scope) =
        values.map (fun value => some { value, isConstant }) ∧
      after.localBinding? scope name = some { value := .list rest, isConstant } ∧
      values ++ (after.list rest).toList = items.rightpad front.length .null := by
  obtain ⟨names, rfl⟩ := ListSlot.eq_map_bind noRest noHole
  have named : (Pattern.list (names.map .bind)).boundNames = names := by
    simp [Pattern.boundNames, List.filterMap_map, Function.comp_def, ListSlot.boundName?]
  obtain ⟨bound, made⟩ := taken.rest names.length name (by simp)
  have left : after.list ⟨before.lists.size⟩ = (items.drop names.length).toArray := by
    simp [Heap.list, made]
  refine ⟨(items.rightpad names.length .null).take names.length, _, ?_, bound, ?_⟩
  · rw [named]
    exact taken.names_eq
  rw [left, List.length_map]
  calc (items.rightpad names.length .null).take names.length ++ items.drop names.length
    _ = (items.rightpad names.length .null).take names.length ++
          (items.rightpad names.length .null).drop names.length := by rw [drop_rightpad_null]
    _ = items.rightpad names.length .null := List.take_append_drop ..

end Heap

namespace Evaluator

/-- A list pattern that is accepted, and in which no name stands twice, takes any list apart, and
from names that end in a rest the list can be put together again. -/
theorem bindPattern_takesApart (ev : Evaluator) {slots : List ListSlot} (ref : ListRef)
    (isConstant : Bool) {scope : FrameRef} (span : Span) {machine : Machine}
    (accepted : (Pattern.list slots).defect? = none)
    (distinct : (Pattern.list slots).boundNames.Nodup) (inside : machine.heap.HasFrame scope) :
    let items := (machine.heap.list ref).toList
    ∃ heap, ev.bindPattern (.list slots) (.list ref) isConstant scope span machine =
        .ok () { machine with heap } ∧
      machine.heap.TakesApart heap slots items isConstant scope ∧
      ∀ front name, slots = front ++ [.rest name] → .hole ∉ front →
        ∃ values rest,
          (Pattern.list front).boundNames.map (heap.localBinding? scope) =
            values.map (fun value => some { value, isConstant }) ∧
          heap.localBinding? scope name = some { value := .list rest, isConstant } ∧
          values ++ (heap.list rest).toList = items.rightpad front.length .null := by
  intro items
  have restLast := (Pattern.defect?_list_eq_none.mp accepted).2
  obtain ⟨heap, runs, taken⟩ :=
    Run.bindSlots_takesApart isConstant items machine restLast distinct inside
  refine ⟨heap, ?_, taken, fun front name split noHole => ?_⟩
  · unfold bindPattern
    rw [accepted]
    exact runs
  · subst split
    refine taken.reassembles (fun slot member => restLast slot ?_) noHole
    rwa [List.dropLast_concat]

/-- A list of one item is too short for two names: the second one is null, and the rest is empty.
That the first name was a constant before does not matter. -/
theorem bindPattern_takesApart_short :
    let slots : List ListSlot := [.bind "a", .bind "b", .rest "c"]
    let machine : Machine := { heap := {
      frames := #[{ bindings := .ofList [("a", { value := .null, isConstant := true })] }]
      lists := #[#[.bool true]] } }
    ((Pattern.list slots).defect? = none ∧ (Pattern.list slots).boundNames.Nodup ∧
      machine.heap.HasFrame ⟨0⟩) ∧
    ∃ heap values,
      (ofFuel 1).bindPattern (.list slots) (.list ⟨0⟩) false ⟨0⟩ {} machine =
        .ok () { machine with heap } ∧
      heap.lists = #[#[.bool true], #[]] ∧
      heap.localBinding? ⟨0⟩ "c" = some { value := .list ⟨1⟩ } ∧
      ["a", "b"].map (heap.localBinding? ⟨0⟩) = values.map (fun value => some { value }) ∧
      values ++ (heap.list ⟨1⟩).toList = [.bool true, .null] := by
  intro slots machine
  have accepted : (Pattern.list slots).defect? = none := rfl
  have distinct : (Pattern.list slots).boundNames.Nodup := by decide
  have inside : machine.heap.HasFrame ⟨0⟩ := Nat.zero_lt_one
  obtain ⟨heap, runs, taken, again⟩ :=
    bindPattern_takesApart (ofFuel 1) ⟨0⟩ false {} accepted distinct inside
  obtain ⟨bound, made⟩ := taken.rest 2 "c" rfl
  obtain ⟨values, rest, named, held, whole⟩ := again [.bind "a", .bind "b"] "c" rfl (by decide)
  cases bound.symm.trans held
  exact ⟨⟨accepted, distinct, inside⟩, heap, values, runs, made, bound, named, whole⟩

end Evaluator

end Hati
