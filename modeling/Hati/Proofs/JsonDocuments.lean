import Hati.Proofs.JsonRoundTrip
import Hati.Proofs.JsonTree

namespace Hati

/-!
# Documents survive a load and a save

A document is built from fresh lists and objects, and serializing what was built gives the
document again, with one exception.  An object keeps the link to its class among its properties,
under a name of its own, and serialization leaves that property out.  A field of the document
with this name is stored like any other, and is taken for the link when the object is saved.
-/

namespace Json

/-- Trees without fractions, whose whole numbers are written as such and whose objects have
distinct keys. -/
inductive IsDocument : Json → Prop where
  | null : IsDocument .null
  | bool (b : Bool) : IsDocument (.bool b)
  | text (s : String) : IsDocument (.text s)
  | int {n : Int} (small : n.natAbs < 9000000000000000) : IsDocument (.int n)
  | list {items : List Json} (inside : ∀ item ∈ items, IsDocument item) : IsDocument (.list items)
  | object {fields : List (String × Json)} (distinct : (fields.map Prod.fst).Nodup)
    (inside : ∀ field ∈ fields, IsDocument field.2) : IsDocument (.object fields)

/-- An object of the tree has a field that is named like the link to a class. -/
inductive HasLink : Json → Prop where
  | here {fields : List (String × Json)} (named : classLinkName ∈ fields.map Prod.fst) :
    HasLink (.object fields)
  | item {items : List Json} {item : Json} (member : item ∈ items) (inner : HasLink item) :
    HasLink (.list items)
  | field {fields : List (String × Json)} {field : String × Json} (member : field ∈ fields)
    (inner : HasLink field.2) : HasLink (.object fields)

/-- The tree without the fields of that name. -/
def withoutLinks : Json → Json
  | list items => .list (items.map withoutLinks)
  | object fields =>
    .object ((fields.map fun field => (field.1, withoutLinks field.2)).filter fun field =>
      field.1 != classLinkName)
  | other => other
termination_by json => sizeOf json
decreasing_by
  · have smaller := List.sizeOf_lt_of_mem ‹_›
    simp
    omega
  · have smaller := List.sizeOf_lt_of_mem ‹_›
    obtain ⟨key, inner⟩ := field
    simp at smaller ⊢
    omega

variable {json : Json}

theorem hasLink_list {items : List Json} :
    (Json.list items).HasLink ↔ ∃ item ∈ items, item.HasLink := by
  constructor
  · rintro (_ | ⟨member, inner⟩ | _)
    exact ⟨_, member, inner⟩
  · rintro ⟨item, member, inner⟩
    exact .item member inner

theorem hasLink_object {fields : List (String × Json)} :
    (Json.object fields).HasLink ↔
      ∃ field ∈ fields, field.1 = classLinkName ∨ field.2.HasLink := by
  constructor
  · rintro (named | _ | ⟨member, inner⟩)
    · obtain ⟨field, member, link⟩ := List.mem_map.mp named
      exact ⟨field, member, .inl link⟩
    · exact ⟨_, member, .inr inner⟩
  · rintro ⟨field, member, link | inner⟩
    · exact .here (List.mem_map.mpr ⟨field, member, link⟩)
    · exact .field member inner

/-- Nothing is left out exactly if there is no such field. -/
theorem IsDocument.withoutLinks_eq_iff (document : json.IsDocument) :
    json.withoutLinks = json ↔ ¬json.HasLink := by
  induction document with
  | @list items inside ih =>
      have each := List.map_inj_left (f := withoutLinks) (g := id) (l := items)
      rw [List.map_id] at each
      rw [withoutLinks, list.injEq, hasLink_list, each, not_exists]
      simp only [not_and, id]
      exact forall₂_congr ih
  | @object fields distinct inside ih =>
      have each := List.map_inj_left (f := fun field => (field.1, withoutLinks field.2)) (g := id)
        (l := fields)
      rw [List.map_id] at each
      have linkless (none : ∀ field ∈ fields, field.1 ≠ classLinkName) :
          ((fields.map fun field => (field.1, withoutLinks field.2)).filter fun field =>
            field.1 != classLinkName) = fields ↔ ∀ field ∈ fields, ¬field.2.HasLink := by
        rw [List.filter_eq_self.mpr, each]
        · exact forall₂_congr fun field member => by simp [Prod.ext_iff, ih field member]
        · intro field member
          obtain ⟨inner, among, rfl⟩ := List.mem_map.mp member
          simpa using none inner among
      rw [withoutLinks, object.injEq, hasLink_object]
      constructor
      · intro same
        have none : ∀ field ∈ fields, field.1 ≠ classLinkName := by
          intro field member
          rw [← same] at member
          simpa using (List.mem_filter.mp member).2
        rintro ⟨field, member, link | inner⟩
        · exact none field member link
        · exact (linkless none).mp same field member inner
      · intro unlinked
        refine (linkless fun field member link => ?_).mpr fun field member inner => ?_
        · exact unlinked ⟨field, member, .inl link⟩
        · exact unlinked ⟨field, member, .inr inner⟩
  | _ =>
      rw [withoutLinks]
      · exact iff_of_true rfl nofun
      all_goals nofun

end Json

/-! ## Building a document -/

namespace Heap

variable {heap : Heap}

/-- The value has the tree, also when more was allocated. -/
def Saves (heap : Heap) (value : Value) (json : Json) : Prop :=
  ∀ later, heap.Extends later → value.HasTree later json

theorem Saves.extend {value : Value} {json : Json} {later : Heap} (saves : heap.Saves value json)
    (extended : heap.Extends later) : later.Saves value json :=
  fun last further => saves last (extended.trans further)

/-- The values of several trees are saved if that of each is, wherever it is built. -/
theorem ofJsonItems_saves {items : List Json}
    (each : ∀ item ∈ items, ∀ heap : Heap, heap.Extends (heap.ofJson item).2 ∧
      (heap.ofJson item).2.Saves (heap.ofJson item).1 item.withoutLinks) :
    ∀ heap : Heap, heap.Extends (heap.ofJsonItems items).2 ∧
      List.Forall₂ (heap.ofJsonItems items).2.Saves (heap.ofJsonItems items).1
        (items.map Json.withoutLinks) := by
  induction items with
  | nil => exact fun heap => ⟨.refl heap, .nil⟩
  | cons item items ih =>
      intro heap
      obtain ⟨grown, saves⟩ := each item List.mem_cons_self heap
      obtain ⟨grownMore, others⟩ := ih
        (fun other member => each other (List.mem_cons_of_mem item member)) (heap.ofJson item).2
      exact ⟨grown.trans grownMore, .cons (saves.extend grownMore) others⟩

theorem ofJsonFields_saves {fields : List (String × Json)}
    (each : ∀ field ∈ fields, ∀ heap : Heap, heap.Extends (heap.ofJson field.2).2 ∧
      (heap.ofJson field.2).2.Saves (heap.ofJson field.2).1 field.2.withoutLinks) :
    ∀ heap : Heap, heap.Extends (heap.ofJsonFields fields).2 ∧
      List.Forall₂ (fun pair field =>
          pair.1 = field.1 ∧ (heap.ofJsonFields fields).2.Saves pair.2 field.2)
        (heap.ofJsonFields fields).1 (fields.map fun field => (field.1, field.2.withoutLinks)) := by
  induction fields with
  | nil => exact fun heap => ⟨.refl heap, .nil⟩
  | cons field fields ih =>
      intro heap
      obtain ⟨grown, saves⟩ := each field List.mem_cons_self heap
      obtain ⟨grownMore, others⟩ := ih
        (fun other member => each other (List.mem_cons_of_mem field member)) (heap.ofJson field.2).2
      exact ⟨grown.trans grownMore, .cons ⟨rfl, saves.extend grownMore⟩ others⟩

/-- All properties of an object of pairs are public, so only the link is not gone into. -/
theorem fields_allocObject {pairs : List (String × Value)}
    (distinct : (pairs.map Prod.fst).Nodup) (data : ∀ pair ∈ pairs, pair.2.type ≠ .function)
    {later : Heap} (extended : (heap.allocObject (.ofPairs pairs)).2.Extends later) :
    later.fields (heap.allocObject (.ofPairs pairs)).1 =
      (pairs.filter fun pair => pair.1 != classLinkName).map fun pair =>
        (pair.1, { value := pair.2 }) := by
  rw [fields, extended.object_eq (by simp [allocObject]), object_allocObject, Object.visible,
    Object.entries_ofPairs distinct, List.filter_filter, List.filter_map]
  congr 1
  refine List.filter_congr fun pair member => ?_
  simp [data pair member]

/-- A document is saved as it was, but for the fields that are taken for links. -/
theorem ofJson_saves {json : Json} (document : json.IsDocument) :
    ∀ heap : Heap, heap.Extends (heap.ofJson json).2 ∧
      (heap.ofJson json).2.Saves (heap.ofJson json).1 json.withoutLinks := by
  induction document with
  | null =>
      intro heap
      simp only [Json.withoutLinks, ofJson]
      exact ⟨.refl heap, fun _ _ => .null⟩
  | bool b =>
      intro heap
      simp only [Json.withoutLinks, ofJson]
      exact ⟨.refl heap, fun _ _ => .bool b⟩
  | text s =>
      intro heap
      simp only [Json.withoutLinks, ofJson]
      exact ⟨.refl heap, fun _ _ => .text s⟩
  | @int n small =>
      intro heap
      simp only [Json.withoutLinks, ofJson]
      refine ⟨.refl heap, fun later _ => ?_⟩
      have whole := Number.isWhole_ofInt (n := n) (by omega)
      have hasTree : Value.HasTree later (.number (Float.ofInt n)) _ := .number _
      rwa [Value.numberToJson_whole whole small] at hasTree
  | @list items inside ih =>
      intro heap
      obtain ⟨grown, saves⟩ := ofJsonItems_saves ih heap
      rw [Json.withoutLinks, ofJson]
      refine ⟨grown.trans (extends_allocList _ _), fun later extended => ?_⟩
      refine .of_items ?_
      rw [extended.list_eq (by simp [allocList]), list_allocList]
      exact saves.imp fun _ _ saved => saved later ((extends_allocList _ _).trans extended)
  | @object fields distinct inside ih =>
      intro heap
      obtain ⟨grown, saves⟩ := ofJsonFields_saves ih heap
      rw [Json.withoutLinks, ofJson]
      refine ⟨grown.trans (extends_allocObject _ _), fun later extended => ?_⟩
      have keys : (heap.ofJsonFields fields).1.map Prod.fst = fields.map Prod.fst := by
        have same := saves.imp fun _ _ saved => saved.1
        rw [List.forall₂_map_right_iff] at same
        rwa [← List.forall₂_eq_eq_eq, List.forall₂_map_left_iff, List.forall₂_map_right_iff]
      have data : ∀ pair ∈ (heap.ofJsonFields fields).1, pair.2.type ≠ .function := by
        intro pair member
        obtain ⟨index, bound, rfl⟩ := List.getElem_of_mem member
        exact ((saves.get bound (saves.length_eq ▸ bound)).2 _ (.refl _)).type_ne_function
      refine .of_fields ?_
      rw [fields_allocObject (keys ▸ distinct) data extended, List.forall₂_map_left_iff]
      have kept := List.rel_filter (p := fun pair : String × Value => pair.1 != classLinkName)
        (q := fun field : String × Json => field.1 != classLinkName)
        (fun _ _ saved => by
          dsimp only
          rw [saved.1]) saves
      exact kept.imp fun _ _ saved =>
        ⟨saved.1, saved.2 later ((extends_allocObject _ _).trans extended)⟩

end Heap

namespace Json

variable {json : Json}

/-- Saving the value of a document gives the document without the fields that are named like the
link to a class, and with every other field in its place. -/
theorem IsDocument.toJson_ofJson (document : json.IsDocument) (heap : Heap) :
    (heap.ofJson json).1.toJson (heap.ofJson json).2 = .ok json.withoutLinks ∧
    ((heap.ofJson json).1.toJson (heap.ofJson json).2 = .ok json ↔ ¬json.HasLink) := by
  have saved := (Heap.ofJson_saves document heap).2 _ (.refl _)
  rw [Value.toJson_eq_ok_iff.mpr saved]
  exact ⟨rfl, by rw [Except.ok.injEq, document.withoutLinks_eq_iff]⟩

/-- A document whose keys are in no order, with two fields that are left out. -/
theorem IsDocument.toJson_ofJson_nested :
    let json : Json := .object [("b", .list [.int (-3), .object [(classLinkName, .null)]]),
      (classLinkName, .text "x"), ("a", .null)]
    json.IsDocument ∧ json.HasLink ∧
    (({} : Heap).ofJson json).1.toJson (({} : Heap).ofJson json).2 =
      .ok (.object [("b", .list [.int (-3), .object []]), ("a", .null)]) := by
  intro json
  have inner : (Json.object [(classLinkName, .null)]).IsDocument :=
    .object (List.nodup_singleton _) (List.forall_mem_singleton.mpr .null)
  have items : (Json.list [.int (-3), .object [(classLinkName, .null)]]).IsDocument :=
    .list (List.forall_mem_cons.mpr ⟨.int (by decide), List.forall_mem_singleton.mpr inner⟩)
  have document : json.IsDocument := by
    refine .object (by decide) (List.forall_mem_cons.mpr ⟨items, ?_⟩)
    exact List.forall_mem_cons.mpr ⟨.text _, List.forall_mem_singleton.mpr .null⟩
  have left : json.withoutLinks =
      .object [("b", .list [.int (-3), .object []]), ("a", .null)] := by
    simp [json, withoutLinks, classLinkName]
  exact ⟨document, .here (by decide), left ▸ (document.toJson_ofJson {}).1⟩

/-- A field with the name of the link does not survive. -/
theorem toJson_ofJson_link :
    let json : Json := .object [(classLinkName, .int 1)]
    json.IsDocument ∧
    (({} : Heap).ofJson json).1.toJson (({} : Heap).ofJson json).2 = .ok (.object []) ∧
    ¬(({} : Heap).ofJson json).1.toJson (({} : Heap).ofJson json).2 = .ok json := by
  intro json
  have lost : (({} : Heap).ofJson json).1.toJson (({} : Heap).ofJson json).2 =
      .ok (.object []) := rfl
  refine ⟨?_, lost, ?_⟩
  · exact .object (List.nodup_singleton _) (List.forall_mem_singleton.mpr (.int (by decide)))
  · rw [lost]
    simp [json]

end Json

end Hati
