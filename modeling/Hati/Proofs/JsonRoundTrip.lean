import Hati.Interpreter
import Hati.Proofs.DistinctKeys
import Hati.Proofs.JsonText
import Hati.Proofs.JsonTree
import Hati.Proofs.WholeNumbers

namespace Hati

/-!
# Data survives JSON

Data is what JSON has a notation for: null, truth values, whole numbers that are exact, texts,
and lists and objects of data.  Its text reads back as an equal value, all of whose lists and
objects are new.

Parts of data may be shared.  No part stands inside itself, because what a container holds is
nested less deeply than the container is, so data has a tree.
-/

namespace Value

/-- Data with at most `depth` containers inside each other.  The properties of its objects are
public, and none of them is taken for the link to a class. -/
inductive IsData (heap : Heap) : Nat → Value → Prop
  | null {depth : Nat} : IsData heap depth .null
  | bool {depth : Nat} (b : Bool) : IsData heap depth (.bool b)
  | text {depth : Nat} (s : String) : IsData heap depth (.text s)
  | number {depth : Nat} {x : Float} {n : Int} (whole : Number.IsWhole x n)
      (small : n.natAbs < 9000000000000000) : IsData heap depth (.number x)
  | list {depth : Nat} {ref : ListRef}
      (items : ∀ item ∈ (heap.list ref).toList, IsData heap depth item) :
      IsData heap (depth + 1) (.list ref)
  | object {depth : Nat} {ref : ObjectRef}
      (shown : ∀ entry ∈ (heap.object ref).properties.entries,
        entry.2.access.isPrivate = false ∧ entry.1 ≠ classLinkName)
      (fields : ∀ entry ∈ (heap.object ref).properties.entries, IsData heap depth entry.2.value) :
      IsData heap (depth + 1) (.object ref)

/-- The tree of data. -/
def tree (heap : Heap) : Nat → Value → Json
  | _, .null => .null
  | _, .bool b => .bool b
  | _, .text s => .text s
  | _, .number x => .int (Number.truncate x)
  | depth + 1, .list ref => .list ((heap.list ref).toList.map (tree heap depth))
  | depth + 1, .object ref =>
    .object ((heap.object ref).properties.entries.map fun entry =>
      (entry.1, tree heap depth entry.2.value))
  | _, _ => .null

variable {heap : Heap} {depth : Nat} {value : Value}

theorem IsData.fits (distinct : heap.KeysDistinct) (data : IsData heap depth value) :
    (tree heap depth value).Fits depth := by
  induction data with
  | null =>
      rw [tree]
      exact .null
  | bool b =>
      rw [tree]
      exact .bool b
  | text s =>
      rw [tree]
      exact .text s
  | number whole small =>
      have bounded := whole.truncate (by omega)
      rw [tree]
      exact .int (by omega) (by omega)
  | list items ih =>
      refine .list fun item member => ?_
      obtain ⟨inner, inside, rfl⟩ := List.mem_map.mp member
      exact ih inner inside
  | @object depth ref shown fields ih =>
      refine .object ?_ fun field member => ?_
      · rw [List.map_map]
        exact distinct ref
      · obtain ⟨entry, inside, rfl⟩ := List.mem_map.mp member
        exact ih entry inside

theorem IsData.type_ne_function (data : IsData heap depth value) : value.type ≠ .function := by
  cases data <;> exact fun impossible => nomatch impossible

/-- All properties of data are shown. -/
theorem IsData.fields_eq {ref : ObjectRef}
    (shown : ∀ entry ∈ (heap.object ref).properties.entries,
      entry.2.access.isPrivate = false ∧ entry.1 ≠ classLinkName)
    (fields : ∀ entry ∈ (heap.object ref).properties.entries, IsData heap depth entry.2.value) :
    heap.fields ref = (heap.object ref).properties.entries := by
  rw [Heap.fields, Object.visible, List.filter_filter]
  refine List.filter_eq_self.mpr fun entry member => ?_
  obtain ⟨isOpen, noLink⟩ := shown entry member
  simp [isOpen, noLink, (fields entry member).type_ne_function]

theorem IsData.hasTree (data : IsData heap depth value) :
    value.HasTree heap (tree heap depth value) := by
  induction data with
  | null =>
      rw [tree]
      exact .null
  | bool b =>
      rw [tree]
      exact .bool b
  | text s =>
      rw [tree]
      exact .text s
  | @number _ x n whole small =>
      rw [tree, whole.truncate (by omega), ← numberToJson_whole whole small]
      exact .number x
  | list items ih =>
      rw [tree]
      exact .of_items (List.forall₂_map_right_iff.mpr (List.forall₂_same.mpr ih))
  | object shown fields ih =>
      rw [tree]
      refine .of_fields ?_
      rw [IsData.fields_eq shown fields, List.forall₂_map_right_iff]
      exact List.forall₂_same.mpr fun entry member => ⟨rfl, ih entry member⟩

theorem toJson_data (data : IsData heap depth value) :
    value.toJson heap = .ok (tree heap depth value) :=
  toJson_eq_ok_iff.mpr data.hasTree

end Value

/-! ## Building a copy -/

namespace Heap

/-- Lists and objects are added, and nothing else is changed. -/
def Extends (before after : Heap) : Prop :=
  ∃ lists objects, after =
    { before with lists := before.lists ++ lists, objects := before.objects ++ objects }

variable {before middle after : Heap}

theorem Extends.refl (heap : Heap) : heap.Extends heap :=
  ⟨#[], #[], by simp⟩

theorem Extends.trans (first : before.Extends middle) (second : middle.Extends after) :
    before.Extends after := by
  obtain ⟨lists, objects, rfl⟩ := first
  obtain ⟨moreLists, moreObjects, rfl⟩ := second
  exact ⟨lists ++ moreLists, objects ++ moreObjects, by simp [Array.append_assoc]⟩

theorem extends_allocList (heap : Heap) (items : Array Value) :
    heap.Extends (heap.allocList items).2 :=
  ⟨#[items], #[], by simp [allocList]⟩

theorem extends_allocObject (heap : Heap) (object : Object) :
    heap.Extends (heap.allocObject object).2 :=
  ⟨#[], #[object], by simp [allocObject]⟩

theorem Extends.size_lists (extended : before.Extends after) :
    before.lists.size ≤ after.lists.size := by
  obtain ⟨lists, objects, rfl⟩ := extended
  simp

theorem Extends.size_objects (extended : before.Extends after) :
    before.objects.size ≤ after.objects.size := by
  obtain ⟨lists, objects, rfl⟩ := extended
  simp

theorem Extends.list_eq (extended : before.Extends after) {ref : ListRef}
    (allocated : ref.index < before.lists.size) : after.list ref = before.list ref := by
  obtain ⟨lists, objects, rfl⟩ := extended
  simp [Heap.list, Array.getD_eq_getD_getElem?, Array.getElem?_append, allocated]

theorem Extends.object_eq (extended : before.Extends after) {ref : ObjectRef}
    (allocated : ref.index < before.objects.size) : after.object ref = before.object ref := by
  obtain ⟨lists, objects, rfl⟩ := extended
  simp [Heap.object, Array.getD_eq_getD_getElem?, Array.getElem?_append, allocated]

end Heap

namespace Value

/-- The second value, seen in the heap `after`, has the structure of the first one, seen in the
heap `source`, and all its lists and objects are newer than the heap `before`. -/
inductive Copied (source before after : Heap) : Value → Value → Prop
  | null : Copied source before after .null .null
  | bool (b : Bool) : Copied source before after (.bool b) (.bool b)
  | text (s : String) : Copied source before after (.text s) (.text s)
  | number {x y : Float} (equal : (y == x) = true) :
      Copied source before after (.number x) (.number y)
  | list {ref copy : ListRef} (fresh : before.lists.size ≤ copy.index)
      (allocated : copy.index < after.lists.size)
      (size : (source.list ref).size = (after.list copy).size)
      (items : ∀ pair ∈ (source.list ref).toList.zip (after.list copy).toList,
        Copied source before after pair.1 pair.2) :
      Copied source before after (.list ref) (.list copy)
  | object {ref copy : ObjectRef} (fresh : before.objects.size ≤ copy.index)
      (allocated : copy.index < after.objects.size)
      (keys : (source.object ref).properties.keys = (after.object copy).properties.keys)
      (values : ∀ pair ∈ (source.object ref).properties.entries.zip
          (after.object copy).properties.entries,
        Copied source before after pair.1.2.value pair.2.2.value) :
      Copied source before after (.object ref) (.object copy)

variable {source before after later : Heap} {value copy : Value}

/-- A copy stays one while cells are added. -/
theorem Copied.extend (copied : Copied source before after value copy)
    (extended : after.Extends later) : Copied source before later value copy := by
  induction copied with
  | null => exact .null
  | bool b => exact .bool b
  | text s => exact .text s
  | number equal => exact .number equal
  | list fresh allocated size items ih =>
      have same := extended.list_eq allocated
      refine .list fresh (Nat.lt_of_lt_of_le allocated extended.size_lists) (same ▸ size) ?_
      rw [same]
      exact ih
  | object fresh allocated keys values ih =>
      have same := extended.object_eq allocated
      refine .object fresh (Nat.lt_of_lt_of_le allocated extended.size_objects) (same ▸ keys) ?_
      rw [same]
      exact ih

end Value

theorem Object.entries_ofPairs {pairs : List (String × Value)}
    (distinct : (pairs.map Prod.fst).Nodup) :
    (Object.ofPairs pairs).properties.entries =
      pairs.map fun pair => (pair.1, { value := pair.2 }) := by
  have collected : ∀ (pairs : List (String × Value)) (object : Object),
      (pairs.foldl (fun object pair => object.define pair.1 pair.2) object).properties =
        (pairs.map fun pair => (pair.1, { value := pair.2 })).foldl
          (fun dict (entry : String × Property) => dict.insert entry.1 entry.2)
          object.properties := by
    intro pairs
    induction pairs with
    | nil => exact fun _ => rfl
    | cons pair pairs ih => exact fun object => ih _
  rw [ofPairs, collected]
  refine Dict.entries_ofList ?_
  rw [List.map_map]
  exact distinct

namespace Heap

theorem ofJsonFields_eq (fields : List (String × Json)) :
    ∀ heap : Heap, heap.ofJsonFields fields =
      ((fields.map Prod.fst).zip (heap.ofJsonItems (fields.map Prod.snd)).1,
        (heap.ofJsonItems (fields.map Prod.snd)).2) := by
  induction fields with
  | nil => exact fun _ => rfl
  | cons field fields ih =>
      intro heap
      obtain ⟨key, value⟩ := field
      simp only [ofJsonFields, ih, ofJsonItems, List.map_cons, List.zip_cons_cons]

variable {source before : Heap}

/-- The values of several trees are copies if those of each are, wherever it is built. -/
theorem ofJsonItems_copied {write : Value → Json} (items : List Value)
    (each : ∀ item ∈ items, ∀ heap, before.Extends heap →
      heap.Extends (heap.ofJson (write item)).2 ∧
        item.Copied source before (heap.ofJson (write item)).2 (heap.ofJson (write item)).1) :
    ∀ heap, before.Extends heap →
      heap.Extends (heap.ofJsonItems (items.map write)).2 ∧
      (heap.ofJsonItems (items.map write)).1.length = items.length ∧
      ∀ pair ∈ items.zip (heap.ofJsonItems (items.map write)).1,
        pair.1.Copied source before (heap.ofJsonItems (items.map write)).2 pair.2 := by
  induction items with
  | nil => exact fun heap _ => ⟨.refl heap, rfl, fun _ impossible => nomatch impossible⟩
  | cons item items ih =>
      intro heap newer
      obtain ⟨grown, copied⟩ := each item List.mem_cons_self heap newer
      obtain ⟨grownMore, count, others⟩ := ih
        (fun other member => each other (List.mem_cons_of_mem _ member)) _ (newer.trans grown)
      simp only [List.map_cons, ofJsonItems, List.length_cons, List.zip_cons_cons,
        List.forall_mem_cons]
      exact ⟨grown.trans grownMore, congrArg Nat.succ count, copied.extend grownMore, others⟩

/-- An object of copies is a copy, if it has them under the same keys. -/
theorem copied_object {ref : ObjectRef} {middle : Heap} {values : List Value}
    (distinct : (source.object ref).properties.keys.Nodup) (newer : before.Extends middle)
    (count : values.length = (source.object ref).properties.entries.length)
    (copied : ∀ pair ∈ ((source.object ref).properties.entries.map (·.2.value)).zip values,
      pair.1.Copied source before middle pair.2) :
    (Value.object ref).Copied source before
      (middle.allocObject (.ofPairs ((source.object ref).properties.keys.zip values))).2
      (.object
        (middle.allocObject (.ofPairs ((source.object ref).properties.keys.zip values))).1) := by
  have same : (source.object ref).properties.keys.length = values.length := by
    rw [count, Dict.keys, List.length_map]
  have names := List.map_fst_zip (Nat.le_of_eq same)
  have made := Object.entries_ofPairs (names.symm ▸ distinct)
  refine .object newer.size_objects (by simp [allocObject]) ?_ ?_
  · rw [object_allocObject, Dict.keys.eq_1 (Object.ofPairs _).properties, made, List.map_map]
    exact names.symm
  · rw [object_allocObject, made]
    intro pair member
    refine (copied (pair.1.2.value, pair.2.2.value) ?_).extend (extends_allocObject _ _)
    have held : ((source.object ref).properties.keys.zip values).map Prod.snd = values :=
      List.map_snd_zip (Nat.le_of_eq same.symm)
    rw [← held, List.zip_map]
    rw [List.zip_map_right] at member
    obtain ⟨inner, inside, rfl⟩ := List.mem_map.mp member
    exact List.mem_map.mpr ⟨inner, inside, rfl⟩

/-- The value of the tree of data is a copy, wherever it is built. -/
theorem ofJson_copied (distinct : source.KeysDistinct) {depth : Nat} {value : Value}
    (data : value.IsData source depth) :
    ∀ heap, before.Extends heap →
      heap.Extends (heap.ofJson (value.tree source depth)).2 ∧
        value.Copied source before (heap.ofJson (value.tree source depth)).2
          (heap.ofJson (value.tree source depth)).1 := by
  induction data with
  | null =>
      intro heap newer
      simp only [Value.tree, ofJson]
      exact ⟨.refl heap, .null⟩
  | bool b =>
      intro heap newer
      simp only [Value.tree, ofJson]
      exact ⟨.refl heap, .bool b⟩
  | text s =>
      intro heap newer
      simp only [Value.tree, ofJson]
      exact ⟨.refl heap, .text s⟩
  | number whole small =>
      intro heap newer
      have equal := Number.ofInt_beq whole (by omega)
      simp only [Value.tree, ofJson, whole.truncate (by omega)]
      exact ⟨.refl heap, .number equal⟩
  | @list depth ref items ih =>
      intro heap newer
      obtain ⟨grown, count, copied⟩ := ofJsonItems_copied _ ih heap newer
      simp only [Value.tree, ofJson]
      refine ⟨grown.trans (extends_allocList _ _), .list ?_ ?_ ?_ ?_⟩
      · exact (newer.trans grown).size_lists
      · simp [allocList]
      · rw [list_allocList]
        simpa using count.symm
      · rw [list_allocList]
        exact fun pair member => (copied pair member).extend (extends_allocList _ _)
  | @object depth ref shown fields ih =>
      intro heap newer
      have each : ∀ item ∈ (source.object ref).properties.entries.map (·.2.value),
          ∀ heap, before.Extends heap →
            heap.Extends (heap.ofJson (item.tree source depth)).2 ∧
              item.Copied source before (heap.ofJson (item.tree source depth)).2
                (heap.ofJson (item.tree source depth)).1 := by
        intro item member
        obtain ⟨entry, inside, rfl⟩ := List.mem_map.mp member
        exact ih entry inside
      obtain ⟨grown, count, copied⟩ := ofJsonItems_copied _ each heap newer
      rw [List.map_map] at grown count copied
      simp only [Value.tree, ofJson, ofJsonFields_eq, List.map_map]
      have keys : Prod.fst ∘ (fun entry : String × Property =>
          (entry.1, entry.2.value.tree source depth)) = Prod.fst := rfl
      have values : Prod.snd ∘ (fun entry : String × Property =>
          (entry.1, entry.2.value.tree source depth)) =
            Value.tree source depth ∘ (·.2.value) := rfl
      rw [keys, values]
      generalize heap.ofJsonItems ((source.object ref).properties.entries.map
        (Value.tree source depth ∘ (·.2.value))) = built at grown count copied ⊢
      rw [List.length_map] at count
      exact ⟨grown.trans (extends_allocObject _ _),
        copied_object (distinct ref) (newer.trans grown) count copied⟩

end Heap
namespace Evaluator

/-- The text of data reads back, whenever and wherever that happens, as a new copy of what the
data was when the text was made. -/
theorem json_roundTrip (ev : Evaluator) {machine : Machine} {value : Value}
    (distinct : machine.heap.KeysDistinct) (data : value.IsData machine.heap Json.maxDepth)
    (options : List Value) (scope : FrameRef) (span : Span) :
    ∃ text,
      ev.runGlobal .jsonStringify (value :: options) scope span machine =
        .ok (.text text) machine ∧
      ∀ (later : Machine) (scope : FrameRef) (span : Span), ∃ copy after,
        ev.runGlobal .jsonParse [.text text] scope span later =
          .ok copy { later with heap := after } ∧
        later.heap.Extends after ∧ value.Copied machine.heap later.heap after copy := by
  have written := Value.toJson_data data
  let pretty := (options.getD 0 .null).isTrue machine.heap
  refine ⟨(value.tree machine.heap Json.maxDepth).render pretty, ?_, fun later scope span => ?_⟩
  · have asked : (value :: options).getD 1 .null = options.getD 0 .null := by
      rw [List.getD_cons_succ]
    simp only [runGlobal, Run.stringify, Run.isTrue, Run.read, bind, EStateM.bind, asked,
      List.headD_cons, written, Run.lift, pure, EStateM.pure, pretty]
  · have read := (data.fits distinct).read?_render pretty
    obtain ⟨grown, copied⟩ := Heap.ofJson_copied distinct data later.heap (.refl later.heap)
    refine ⟨_, _, ?_, grown, copied⟩
    simp only [runGlobal, Run.parseJson, List.head?_cons, read]
    rfl

/-- An object with a list in which an empty list stands twice, beside the negative zero. -/
theorem json_roundTrip_shared :
    let machine : Machine := { heap := {
      lists := #[#[], #[.list ⟨0⟩, .list ⟨0⟩, .number (-0.0)]]
      objects := #[{ properties :=
        ⟨[("b", { value := .list ⟨1⟩ }), ("a", { value := .text "\"\n" })]⟩ }] } }
    machine.heap.KeysDistinct ∧
    (Value.object ⟨0⟩).IsData machine.heap Json.maxDepth ∧
    ∃ text,
      (Evaluator.ofFuel 0).runGlobal .jsonStringify [.object ⟨0⟩, .bool true] ⟨0⟩ {} machine =
        .ok (.text text) machine ∧
      ∀ (later : Machine) (scope : FrameRef) (span : Span), ∃ copy after,
        (Evaluator.ofFuel 0).runGlobal .jsonParse [.text text] scope span later =
          .ok copy { later with heap := after } ∧
        later.heap.Extends after ∧
        (Value.object ⟨0⟩).Copied machine.heap later.heap after copy := by
  intro machine
  have distinct : machine.heap.KeysDistinct := by
    rintro ⟨_ | index⟩
    · decide
    · exact List.nodup_nil
  have zero : Number.IsWhole (-0.0) 0 := Number.isWhole_zero rfl
  have items : ∀ item ∈ (machine.heap.list ⟨1⟩).toList, item.IsData machine.heap 125 := by
    have empty : (Value.list ⟨0⟩).IsData machine.heap 125 :=
      .list fun _ impossible => nomatch impossible
    have negative : (Value.number (-0.0)).IsData machine.heap 125 := .number zero (by decide)
    exact List.forall_mem_cons.mpr ⟨empty, List.forall_mem_cons.mpr ⟨empty,
      List.forall_mem_cons.mpr ⟨negative, fun _ impossible => nomatch impossible⟩⟩⟩
  have data : (Value.object ⟨0⟩).IsData machine.heap Json.maxDepth := by
    refine .object (by decide) (List.forall_mem_cons.mpr ⟨.list items, ?_⟩)
    exact List.forall_mem_cons.mpr ⟨.text _, fun _ impossible => nomatch impossible⟩
  exact ⟨distinct, data, json_roundTrip _ distinct data _ _ _⟩

end Evaluator

end Hati
