import Hati.Proofs.Outline

namespace Hati

/-!
# Which values have a JSON tree

A value has no tree if a walk through it meets a class, a function that is the value itself or
an item of a list, or a container inside itself.  Every other value has one, its unfolding:
what is shared is written at each place where it stands.

The walk through a value always ends, and what it makes of the value is read off the outline.
It stops at the first obstacle that it meets, but whether it meets one does not depend on the
order in which it goes.
-/

/-! ## Collecting results -/

section

variable {α β : Type} {f : α → Except Cause β}

theorem Except.bind_eq_ok {input : Except Cause α} {result : β} :
    (input >>= f) = .ok result ↔ ∃ a, input = .ok a ∧ f a = .ok result := by
  cases input <;> simp [Bind.bind, Except.bind]

theorem List.mapM_eq_ok {items : List α} {results : List β} :
    items.mapM f = .ok results ↔
      List.Forall₂ (fun item result => f item = .ok result) items results := by
  induction items generalizing results with
  | nil =>
      rw [List.mapM_nil, List.forall₂_nil_left_iff]
      exact ⟨fun same => by cases same; rfl, fun same => by rw [same]; rfl⟩
  | cons item items ih =>
      rw [List.mapM_cons, Except.bind_eq_ok, List.forall₂_cons_left_iff]
      constructor
      · rintro ⟨result, first, rest⟩
        obtain ⟨more, others, same⟩ := Except.bind_eq_ok.mp rest
        cases same
        exact ⟨result, more, first, ih.mp others, rfl⟩
      · rintro ⟨result, more, first, others, rfl⟩
        exact ⟨result, first, Except.bind_eq_ok.mpr ⟨more, ih.mpr others, rfl⟩⟩

/-- A failure is that of one of the items. -/
theorem List.exists_of_mapM_eq_error {items : List α} {cause : Cause}
    (failed : items.mapM f = .error cause) : ∃ item ∈ items, f item = .error cause := by
  induction items with
  | nil => cases failed
  | cons item items ih =>
      rw [List.mapM_cons] at failed
      cases first : f item with
      | error other =>
          rw [first] at failed
          cases failed
          exact ⟨item, List.mem_cons_self, first⟩
      | ok result =>
          rw [first] at failed
          cases rest : items.mapM f with
          | error other =>
              rw [rest] at failed
              cases failed
              obtain ⟨inner, member, failure⟩ := ih rest
              exact ⟨inner, List.mem_cons_of_mem item member, failure⟩
          | ok results =>
              rw [rest] at failed
              cases failed

end

/-! ## Reading an outline -/

/-- The tree of a value that is no container. -/
def Value.plainJson : Value → Except Cause Json
  | null => .ok .null
  | bool b => .ok (.bool b)
  | text s => .ok (.text s)
  | number x => .ok (numberToJson x)
  | other => .error (.notSerializable other.type)

namespace Outline

/-- The entries that are gone into. -/
def shown (entries : List (String × Access × Outline)) : List (String × Access × Outline) :=
  entries.filter fun entry => entry.2.2.value.type != .function

/-- The tree that is read off an outline.  Functions among the properties are left out. -/
def toJson : Outline → Except Cause Json
  | plain value => value.plainJson
  | mark _ => .error .cyclicStructure
  | list _ items => do
    let trees ← items.mapM toJson
    .ok (.list trees)
  | object _ entries => do
    let fields ← (shown entries).attach.mapM fun entry => do
      let field ← toJson entry.1.2.2
      .ok (entry.1.1, field)
    .ok (.object fields)
termination_by outline => sizeOf outline
decreasing_by
  · have smaller := List.sizeOf_lt_of_mem ‹_›
    simp
    omega
  · have smaller := List.sizeOf_lt_of_mem (List.mem_of_mem_filter entry.2)
    obtain ⟨⟨key, access, seen⟩, member⟩ := entry
    simp at smaller ⊢
    omega

theorem toJson_list (ref : ListRef) (items : List Outline) :
    (list ref items).toJson = (do
      let trees ← items.mapM toJson
      .ok (.list trees)) := by
  rw [toJson]

theorem toJson_object (ref : ObjectRef) (entries : List (String × Access × Outline)) :
    (object ref entries).toJson = (do
      let fields ← (shown entries).mapM fun entry => do
        let field ← toJson entry.2.2
        .ok (entry.1, field)
      .ok (.object fields)) := by
  have detached := List.mapM_map (m := Except Cause) (l := (shown entries).attach)
    (f := Subtype.val) (g := fun entry : String × Access × Outline => do
      let field ← toJson entry.2.2
      .ok (entry.1, field))
  rw [List.attach_map_subtype_val] at detached
  rw [toJson, detached]
  rfl

variable {ref : ListRef} {items : List Outline} {owner : ObjectRef}
  {entries : List (String × Access × Outline)} {json : Json} {cause : Cause}

theorem toJson_list_eq_ok : (list ref items).toJson = .ok json ↔
    ∃ trees, List.Forall₂ (fun item tree => item.toJson = .ok tree) items trees ∧
      json = .list trees := by
  rw [toJson_list, Except.bind_eq_ok]
  constructor
  · rintro ⟨trees, each, same⟩
    cases same
    exact ⟨trees, List.mapM_eq_ok.mp each, rfl⟩
  · rintro ⟨trees, each, rfl⟩
    exact ⟨trees, List.mapM_eq_ok.mpr each, rfl⟩

theorem toJson_object_eq_ok : (object owner entries).toJson = .ok json ↔
    ∃ fields, List.Forall₂ (fun entry field => entry.2.2.toJson = .ok field.2 ∧ field.1 = entry.1)
      (shown entries) fields ∧ json = .object fields := by
  have field (entry : String × Access × Outline) (field : String × Json) :
      ((do
        let field ← toJson entry.2.2
        .ok (entry.1, field)) = (.ok field : Except Cause _)) ↔
        entry.2.2.toJson = .ok field.2 ∧ field.1 = entry.1 := by
    rw [Except.bind_eq_ok]
    constructor
    · rintro ⟨tree, read, same⟩
      cases same
      exact ⟨read, rfl⟩
    · rintro ⟨read, same⟩
      exact ⟨field.2, read, by rw [← same]⟩
  rw [toJson_object, Except.bind_eq_ok]
  constructor
  · rintro ⟨fields, each, same⟩
    cases same
    exact ⟨fields, (List.mapM_eq_ok.mp each).imp fun _ _ => (field _ _).mp, rfl⟩
  · rintro ⟨fields, each, rfl⟩
    exact ⟨fields, List.mapM_eq_ok.mpr (each.imp fun _ _ => (field _ _).mpr), rfl⟩

theorem toJson_list_eq_error (failed : (list ref items).toJson = .error cause) :
    ∃ item ∈ items, item.toJson = .error cause := by
  rw [toJson_list] at failed
  cases each : items.mapM toJson with
  | ok trees =>
      rw [each] at failed
      cases failed
  | error other =>
      rw [each] at failed
      cases failed
      exact List.exists_of_mapM_eq_error each

theorem toJson_object_eq_error (failed : (object owner entries).toJson = .error cause) :
    ∃ entry ∈ shown entries, entry.2.2.toJson = .error cause := by
  rw [toJson_object] at failed
  cases each : ((shown entries).mapM fun entry => do
      let field ← toJson entry.2.2
      .ok (entry.1, field) : Except Cause _) with
  | ok fields =>
      rw [each] at failed
      cases failed
  | error other =>
      rw [each] at failed
      cases failed
      obtain ⟨entry, member, failure⟩ := List.exists_of_mapM_eq_error each
      refine ⟨entry, member, ?_⟩
      cases read : entry.2.2.toJson with
      | ok tree =>
          rw [read] at failure
          cases failure
      | error first =>
          rw [read] at failure
          cases failure
          rfl

end Outline

/-- With enough fuel, a walk makes of a value what is read off its outline.  The induction is on
the fuel, and each step opens a container. -/
theorem Value.toJsonFrom_eq (heap : Heap) (fuel : Nat) :
    ∀ (opened : List Container) (value : Value), heap.unopened opened < fuel →
      toJsonFrom heap fuel opened value = (heap.outlineFrom opened value).toJson := by
  induction fuel with
  | zero => exact fun _ _ impossible => absurd impossible (Nat.not_lt_zero _)
  | succ fuel ih =>
      intro opened value enough
      have outlines := heap.outlines_outlineFrom opened value
      generalize heap.outlineFrom opened value = outline at outlines
      cases outlines with
      | plain plain =>
          rw [Outline.toJson]
          cases value with
          | list ref => cases plain
          | object ref => cases plain
          | _ => rfl
      | @mark container _ isOpen seen =>
          rw [Outline.toJson, ← seen]
          cases container <;> simp [Container.value, toJsonFrom, isOpen]
      | @list ref closed =>
          have shut : opened.contains (.list ref) = false := by simpa using closed
          have items : ∀ item ∈ (heap.list ref).toList,
              toJsonFrom heap fuel (.list ref :: opened) item =
                (heap.outlineFrom (.list ref :: opened) item).toJson := by
            intro item member
            have deeper := Heap.unopened_cons_lt (Heap.list_mem_containers member) shut
            exact ih _ item (by omega)
          simp only [toJsonFrom, shut, Bool.false_eq_true, if_false]
          rw [mapM_congr items, Outline.toJson_list, List.mapM_map]
          rfl
      | @object ref closed =>
          have shut : opened.contains (.object ref) = false := by simpa using closed
          have entries : ∀ entry ∈ (heap.object ref).visible,
              toJsonFrom heap fuel (.object ref :: opened) entry.2.value =
                (heap.outlineFrom (.object ref :: opened) entry.2.value).toJson := by
            intro entry member
            have allocated := Heap.object_mem_containers (Object.mem_disclosed_of_visible member)
            have deeper := Heap.unopened_cons_lt allocated shut
            exact ih _ entry.2.value (by omega)
          simp only [toJsonFrom, shut, Bool.false_eq_true, if_false]
          rw [Outline.toJson_object, Outline.shown, List.filter_map, List.mapM_map]
          simp only [Function.comp_def, Heap.value_outlineFrom]
          congr 1
          refine mapM_congr fun entry member => ?_
          rw [entries entry (List.mem_of_mem_filter member)]

theorem Value.toJson_eq (heap : Heap) (value : Value) :
    value.toJson heap = (heap.outline value).toJson := by
  have enough := heap.unopened_le []
  exact toJsonFrom_eq heap _ [] value (by omega)

/-! ## Trees of values -/

namespace Value

variable {heap : Heap}

/-- The tree is the unfolding of the value. -/
inductive HasTree (heap : Heap) : Value → Json → Prop where
  | null : HasTree heap .null .null
  | bool (b : Bool) : HasTree heap (.bool b) (.bool b)
  | text (s : String) : HasTree heap (.text s) (.text s)
  | number (x : Float) : HasTree heap (.number x) (numberToJson x)
  | list {ref : ListRef} {trees : List Json} (size : trees.length = (heap.list ref).toList.length)
    (items : ∀ pair ∈ (heap.list ref).toList.zip trees, HasTree heap pair.1 pair.2) :
    HasTree heap (.list ref) (.list trees)
  | object {ref : ObjectRef} {fields : List (String × Json)}
    (keys : fields.map Prod.fst = (heap.fields ref).map Prod.fst)
    (values : ∀ pair ∈ ((heap.fields ref).map fun entry => entry.2.value).zip
      (fields.map Prod.snd), HasTree heap pair.1 pair.2) :
    HasTree heap (.object ref) (.object fields)

/-- What keeps a value from having a tree, and why. -/
inductive HasObstacle (heap : Heap) (value : Value) : Cause → Prop where
  | cycle (cyclic : heap.IsCyclic value) : HasObstacle heap value .cyclicStructure
  | class {ref : ClassRef} (reached : heap.Reaches value (.class ref)) :
    HasObstacle heap value (.notSerializable .class)
  | function {ref : FunctionRef} (self : value = .function ref) :
    HasObstacle heap value (.notSerializable .function)
  | item {ref : ListRef} {function : FunctionRef} (reached : heap.Reaches value (.list ref))
    (member : .function function ∈ (heap.list ref).toList) :
    HasObstacle heap value (.notSerializable .function)

theorem HasTree.type_ne_function {value : Value} {json : Json} (hasTree : value.HasTree heap json) :
    value.type ≠ .function := by
  cases hasTree <;> nofun

theorem HasTree.of_items {ref : ListRef} {trees : List Json}
    (each : List.Forall₂ (HasTree heap) (heap.list ref).toList trees) :
    (Value.list ref).HasTree heap (.list trees) :=
  .list each.length_eq.symm fun _ member => (List.forall₂_iff_zip.mp each).2 member

theorem HasTree.of_fields {ref : ObjectRef} {fields : List (String × Json)}
    (each : List.Forall₂ (fun entry field => entry.1 = field.1 ∧ entry.2.value.HasTree heap field.2)
      (heap.fields ref) fields) : (Value.object ref).HasTree heap (.object fields) := by
  refine .object ?_ ?_
  · rw [← List.forall₂_eq_eq_eq, List.forall₂_map_left_iff, List.forall₂_map_right_iff]
    exact each.flip.imp fun _ _ both => both.1.symm
  · have values : List.Forall₂ (HasTree heap) ((heap.fields ref).map fun entry => entry.2.value)
        (fields.map Prod.snd) := by
      rw [List.forall₂_map_left_iff, List.forall₂_map_right_iff]
      exact each.imp fun _ _ both => both.2
    exact fun _ member => (List.forall₂_iff_zip.mp values).2 member

theorem exists_zip_fields {ref : ObjectRef} {fields : List (String × Json)}
    (keys : fields.map Prod.fst = (heap.fields ref).map Prod.fst) {entry : String × Property}
    (member : entry ∈ heap.fields ref) : ∃ tree, (entry.2.value, tree) ∈
      ((heap.fields ref).map fun entry => entry.2.value).zip (fields.map Prod.snd) := by
  have size := congrArg List.length keys
  rw [List.length_map, List.length_map] at size
  exact List.exists_mem_zip (by rw [List.length_map, List.length_map, size])
    (List.mem_map_of_mem member)

/-- What stands inside a value that has a tree has a tree. -/
theorem HasTree.inner {outer : Value} {json : Json} (hasTree : outer.HasTree heap json)
    {inner : Value} (nests : heap.Nests outer inner) : ∃ tree, inner.HasTree heap tree := by
  cases hasTree with
  | list size items =>
      cases nests with
      | item member =>
          obtain ⟨tree, pair⟩ := List.exists_mem_zip size.symm member
          exact ⟨tree, items _ pair⟩
  | object keys values =>
      cases nests with
      | field member =>
          obtain ⟨tree, pair⟩ := exists_zip_fields keys member
          exact ⟨tree, values _ pair⟩
  | _ => cases nests

theorem HasTree.reaches {outer : Value} {json : Json} (hasTree : outer.HasTree heap json)
    {inner : Value} (reached : heap.Reaches outer inner) : ∃ tree, inner.HasTree heap tree := by
  induction reached with
  | refl => exact ⟨json, hasTree⟩
  | tail _ nests ih =>
      obtain ⟨tree, hasTree⟩ := ih
      exact hasTree.inner nests

/-- What stands inside a value that has a tree is nested less deeply, so no cycle is there. -/
theorem HasTree.not_isCyclic {value : Value} {json : Json} (hasTree : value.HasTree heap json) :
    ¬heap.IsCyclic value := by
  induction hasTree with
  | list size items ih =>
      intro cyclic
      obtain ⟨inner, nests, further⟩ := cyclic.inner
      cases nests with
      | item member =>
          obtain ⟨tree, pair⟩ := List.exists_mem_zip size.symm member
          exact ih _ pair further
  | object keys values ih =>
      intro cyclic
      obtain ⟨inner, nests, further⟩ := cyclic.inner
      cases nests with
      | field member =>
          obtain ⟨tree, pair⟩ := exists_zip_fields keys member
          exact ih _ pair further
  | _ =>
      intro cyclic
      obtain ⟨inner, nests, -⟩ := cyclic.inner
      cases nests

theorem HasTree.not_hasObstacle {value : Value} {json : Json} (hasTree : value.HasTree heap json)
    {cause : Cause} : ¬value.HasObstacle heap cause := by
  rintro (cyclic | reached | self | ⟨reached, member⟩)
  · exact hasTree.not_isCyclic cyclic
  · obtain ⟨tree, impossible⟩ := hasTree.reaches reached
    cases impossible
  · subst self
    cases hasTree
  · obtain ⟨tree, hasTree⟩ := hasTree.reaches reached
    obtain ⟨tree, impossible⟩ := hasTree.inner (.item member)
    cases impossible

/-- Trees that are determined item by item are determined. -/
theorem eq_of_zip {values : List Value} {trees others : List Json}
    (size : trees.length = values.length) (same : others.length = values.length)
    (each : ∀ pair ∈ values.zip trees, ∀ other, pair.1.HasTree heap other → pair.2 = other)
    (items : ∀ pair ∈ values.zip others, pair.1.HasTree heap pair.2) : trees = others := by
  refine List.ext_getElem (size.trans same.symm) fun index bound bound' => ?_
  have mine : (values[index], trees[index]) ∈ values.zip trees :=
    List.mem_iff_getElem.mpr ⟨index, by rw [List.length_zip]; omega, List.getElem_zip⟩
  have theirs : (values[index], others[index]) ∈ values.zip others :=
    List.mem_iff_getElem.mpr ⟨index, by rw [List.length_zip]; omega, List.getElem_zip⟩
  exact each _ mine _ (items _ theirs)

/-- A value has one tree at most. -/
theorem HasTree.unique {value : Value} {json : Json} (hasTree : value.HasTree heap json) :
    ∀ other, value.HasTree heap other → json = other := by
  induction hasTree with
  | list size items ih =>
      rintro _ (_ | _ | _ | _ | ⟨same, others⟩ | _)
      rw [eq_of_zip size same ih others]
  | object keys values ih =>
      rintro _ (_ | _ | _ | _ | _ | ⟨same, others⟩)
      have size := congrArg List.length keys
      have sameSize := congrArg List.length same
      simp only [List.length_map] at size sameSize
      have trees := eq_of_zip (by simpa using size) (by simpa using sameSize) ih others
      rw [List.zip_of_prod keys trees, ← List.zip_of_prod same rfl]
  | _ =>
      intro other twin
      cases twin
      rfl

end Value

/-! ## Reading the outline of a value -/

namespace Outline

variable {heap : Heap} {outline : Outline} {value : Value}

theorem eq_plain_of_type {item : Outline} (function : item.value.type = .function) :
    ∃ f, item = .plain (.function f) := by
  cases item with
  | plain inner => cases inner <;> first | exact ⟨_, rfl⟩ | cases function
  | mark container => cases container <;> cases function
  | list ref items => cases function
  | object ref entries => cases function

theorem Depicts.shown (depicts : outline.Depicts heap value) {route : List Container}
    {ref : ObjectRef} {entries : List (String × Access × Outline)}
    (hasPart : outline.HasPart route (.object ref entries)) :
    (Outline.shown entries).map (fun entry => (entry.1, entry.2.2.value)) =
      (heap.fields ref).map fun entry => (entry.1, entry.2.value) := by
  have all := congrArg
    (fun seen => (seen.filter fun entry => entry.2.2.type != .function).map fun entry =>
      (entry.1, entry.2.2)) (depicts.entries route ref entries hasPart)
  simpa only [List.filter_map, List.map_map, Function.comp_def, Outline.shown, Heap.fields]
    using all

/-- The tree that is read off an outline is that of the value.  The induction is on the size of
the part that is read. -/
theorem Depicts.hasTree (depicts : outline.Depicts heap value) (size : Nat) :
    ∀ route part json, outline.HasPart route part → sizeOf part < size →
      part.toJson = .ok json → part.value.HasTree heap json := by
  induction size with
  | zero => exact fun _ _ _ _ impossible => absurd impossible (Nat.not_lt_zero _)
  | succ size ih =>
      intro route part json hasPart bounded read
      cases part with
      | plain value =>
          rw [toJson] at read
          cases value with
          | null => cases read; exact .null
          | bool b => cases read; exact .bool b
          | text s => cases read; exact .text s
          | number x => cases read; exact .number x
          | _ => cases read
      | mark container =>
          rw [toJson] at read
          cases read
      | list ref items =>
          obtain ⟨trees, each, rfl⟩ := toJson_list_eq_ok.mp read
          refine .of_items ?_
          rw [← depicts.items route ref items hasPart, List.forall₂_map_left_iff]
          refine List.forall₂_iff_zip.mpr ⟨each.length_eq, fun {item tree} zipped => ?_⟩
          have among := (List.of_mem_zip zipped).1
          have smaller := List.sizeOf_lt_of_mem among
          refine ih _ item tree (.item hasPart among) ?_ ((List.forall₂_iff_zip.mp each).2 zipped)
          simp only [list.sizeOf_spec] at bounded
          omega
      | object ref entries =>
          obtain ⟨fields, each, rfl⟩ := toJson_object_eq_ok.mp read
          have holds : List.Forall₂ (fun pair field =>
              pair.1 = field.1 ∧ pair.2.HasTree heap field.2)
              ((heap.fields ref).map fun entry => (entry.1, entry.2.value)) fields := by
            rw [← depicts.shown hasPart, List.forall₂_map_left_iff]
            refine List.forall₂_iff_zip.mpr ⟨each.length_eq, fun {entry field} zipped => ?_⟩
            have among := List.mem_of_mem_filter (List.of_mem_zip zipped).1
            have smaller := List.sizeOf_lt_of_mem among
            obtain ⟨read, key⟩ := (List.forall₂_iff_zip.mp each).2 zipped
            refine ⟨key.symm, ih _ entry.2.2 field.2 (.entry hasPart among) ?_ read⟩
            obtain ⟨key, access, seen⟩ := entry
            simp at smaller bounded ⊢
            omega
          exact .of_fields (List.forall₂_map_left_iff.mp holds)

/-- Where reading stops, there is an obstacle. -/
theorem Depicts.hasObstacle (depicts : outline.Depicts heap value) (size : Nat) :
    ∀ route part cause, outline.HasPart route part → sizeOf part < size →
      part.value.type ≠ .function → part.toJson = .error cause → value.HasObstacle heap cause := by
  induction size with
  | zero => exact fun _ _ _ _ impossible => absurd impossible (Nat.not_lt_zero _)
  | succ size ih =>
      intro route part cause hasPart bounded noFunction failed
      have reached := (depicts.encloses hasPart noFunction).1
      cases part with
      | plain inner =>
          rw [toJson] at failed
          cases inner with
          | function ref => exact absurd rfl noFunction
          | «class» ref => cases failed; exact .class reached
          | list ref => cases depicts.plain route _ hasPart
          | object ref => cases depicts.plain route _ hasPart
          | _ => cases failed
      | mark container =>
          rw [toJson] at failed
          cases failed
          exact .cycle (depicts.isCyclic hasPart rfl)
      | list ref items =>
          obtain ⟨item, among, failed⟩ := toJson_list_eq_error failed
          have smaller := List.sizeOf_lt_of_mem among
          simp only [list.sizeOf_spec] at bounded
          by_cases function : item.value.type = .function
          · obtain ⟨f, rfl⟩ := eq_plain_of_type function
            have member := List.mem_map_of_mem (f := Outline.value) among
            rw [depicts.items route ref items hasPart] at member
            rw [toJson] at failed
            cases failed
            exact .item reached member
          · exact ih _ item cause (.item hasPart among) (by omega) function failed
      | object ref entries =>
          obtain ⟨entry, among, failed⟩ := toJson_object_eq_error failed
          obtain ⟨among, noFunction⟩ := List.mem_filter.mp among
          have smaller := List.sizeOf_lt_of_mem among
          refine ih _ entry.2.2 cause (.entry hasPart among) ?_ (by simpa using noFunction) failed
          obtain ⟨key, access, seen⟩ := entry
          simp at smaller bounded ⊢
          omega

end Outline

/-! ## Serialization -/

namespace Value

variable {heap : Heap} {value : Value}

theorem HasTree.of_toJson {json : Json} (read : value.toJson heap = .ok json) :
    value.HasTree heap json := by
  have depicts := heap.outline_depicts value
  rw [toJson_eq] at read
  have hasTree := depicts.hasTree _ [] _ json .whole (Nat.lt_succ_self _) read
  rwa [depicts.whole] at hasTree

theorem HasObstacle.of_toJson {cause : Cause} (failed : value.toJson heap = .error cause) :
    value.HasObstacle heap cause := by
  by_cases function : value.type = .function
  · cases value <;> cases function
    cases failed
    exact .function rfl
  · have depicts := heap.outline_depicts value
    rw [toJson_eq] at failed
    refine depicts.hasObstacle _ [] _ cause .whole (Nat.lt_succ_self _) ?_ failed
    rwa [depicts.whole]

theorem toJson_eq_ok_iff {json : Json} :
    value.toJson heap = .ok json ↔ value.HasTree heap json := by
  refine ⟨.of_toJson, fun hasTree => ?_⟩
  cases made : value.toJson heap with
  | ok other => rw [hasTree.unique other (.of_toJson made)]
  | error cause => exact absurd (HasObstacle.of_toJson made) hasTree.not_hasObstacle

/-- Serialization reads the outline of the value, so it ends.  It fails exactly if there is an
obstacle, for the reason that it gives, and otherwise makes the unfolding of the value.  A shared
container is no obstacle. -/
theorem toJson_fails_iff (heap : Heap) (value : Value) :
    (∃ outline : Outline, outline.Depicts heap value ∧ value.toJson heap = outline.toJson) ∧
    ((∃ cause, value.toJson heap = .error cause) ↔ ∃ cause, value.HasObstacle heap cause) ∧
    (∀ cause, value.toJson heap = .error cause → value.HasObstacle heap cause) ∧
    ∀ json, value.toJson heap = .ok json ↔ value.HasTree heap json := by
  refine ⟨⟨heap.outline value, heap.outline_depicts value, toJson_eq heap value⟩, ⟨?_, ?_⟩,
    fun cause => .of_toJson, fun json => toJson_eq_ok_iff⟩
  · rintro ⟨cause, failed⟩
    exact ⟨cause, .of_toJson failed⟩
  · rintro ⟨cause, obstacle⟩
    cases made : value.toJson heap with
    | ok json => exact absurd obstacle (HasTree.of_toJson made).not_hasObstacle
    | error other => exact ⟨other, rfl⟩

/-- A list that holds another one twice. -/
example :
    let heap : Heap := { lists := #[#[.text "a"], #[.list ⟨0⟩, .list ⟨0⟩]] }
    (Value.list ⟨1⟩).toJson heap = .ok (.list [.list [.text "a"], .list [.text "a"]]) := rfl

end Value

end Hati
