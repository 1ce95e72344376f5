import Hati.Proofs.Outline

namespace Hati

/-!
# Texts show the unfolding

The text of a value is read off its outline, so making it ends, and the marks for cycles stand
where the outline has them.  A value without cycles has no marks, and then the outline is the
unfolding of the value: nothing of it depends on which of its parts are shared.
-/

/-! ## Reading an outline -/

namespace Heap

/-- What stands before the properties of an instance. -/
def title (heap : Heap) (ref : ObjectRef) : String :=
  match heap.classOf? ref with
  | some cls => (heap.class cls).name ++ " "
  | none => ""

theorem title_eq (heap : Heap) (ref : ObjectRef) : heap.title ref =
    ((heap.classOf? ref).map fun cls => (heap.class cls).name).elim "" (· ++ " ") := by
  rw [title]
  cases heap.classOf? ref <;> rfl

/-- How a function is shown as a property. -/
def propertyText (heap : Heap) (access : Access) (ref : FunctionRef) : String :=
  if access.isReadonly then "[getter]" else "[tabia " ++ (heap.function ref).name ++ "]"

end Heap

namespace Outline

/-- The text that is read off an outline inside `depth` objects. -/
def nestedText (heap : Heap) (outline : Outline) (depth : Nat) : String :=
  match outline with
  | plain (.text s) => Text.quoted s
  | plain other => other.plainText heap
  | mark (.list _) => "[/*cycle*/]"
  | mark (.object _) => "\x7b/*cycle*/\x7d"
  | list _ items =>
    if items.isEmpty then "[]"
    else "[ " ++ ", ".intercalate (items.map fun item => item.nestedText heap depth) ++ " ]"
  | object ref entries =>
    let texts := entries.map fun entry => entry.1 ++ ": " ++
      match entry.2.2.value with
      | .function f => heap.propertyText entry.2.1 f
      | _ => entry.2.2.nestedText heap (depth + 1)
    objectLayout.arrange (heap.title ref) texts
      (entries.all fun entry => !entry.2.2.value.isContainer) depth
termination_by sizeOf outline
decreasing_by
  · have smaller := List.sizeOf_lt_of_mem ‹_›
    simp
    omega
  · have smaller := List.sizeOf_lt_of_mem ‹_›
    obtain ⟨key, access, seen⟩ := entry
    simp at smaller ⊢
    omega

def listText (texts : List String) : String :=
  if texts.isEmpty then "[]" else "[ " ++ ", ".intercalate texts ++ " ]"

/-- The text of a property inside `depth` objects. -/
def entryText (heap : Heap) (depth : Nat) (entry : String × Access × Outline) : String :=
  entry.1 ++ ": " ++
    match entry.2.2.value with
    | .function f => heap.propertyText entry.2.1 f
    | _ => entry.2.2.nestedText heap depth

theorem nestedText_list (heap : Heap) (ref : ListRef) (items : List Outline) (depth : Nat) :
    (list ref items).nestedText heap depth =
      listText (items.map fun item => item.nestedText heap depth) := by
  rw [nestedText, listText, List.isEmpty_map]

theorem nestedText_object (heap : Heap) (ref : ObjectRef)
    (entries : List (String × Access × Outline)) (depth : Nat) :
    (object ref entries).nestedText heap depth =
      objectLayout.arrange (heap.title ref) (entries.map (entryText heap (depth + 1)))
        (entries.all fun entry => !entry.2.2.value.isContainer) depth := by
  rw [nestedText]
  rfl

/-- The text that is read off an outline. -/
def text (heap : Heap) : Outline → String
  | plain value => value.plainText heap
  | seen => seen.nestedText heap 0

end Outline

/-- With enough fuel, a walk makes of a value what is read off its outline.  The induction is on
the fuel, and each step opens a container. -/
theorem Value.nestedText_eq (heap : Heap) (fuel : Nat) :
    ∀ (opened : List Container) (depth : Nat) (value : Value), heap.unopened opened < fuel →
      nestedText heap fuel opened depth value =
        (heap.outlineFrom opened value).nestedText heap depth := by
  induction fuel with
  | zero => exact fun _ _ _ impossible => absurd impossible (Nat.not_lt_zero _)
  | succ fuel ih =>
      intro opened depth value enough
      have outlines := heap.outlines_outlineFrom opened value
      generalize heap.outlineFrom opened value = outline at outlines
      cases outlines with
      | plain plain =>
          cases value with
          | list ref => cases plain
          | object ref => cases plain
          | text s => rw [Outline.nestedText]; rfl
          | _ =>
              rw [Outline.nestedText]
              · rfl
              all_goals nofun
      | @mark container _ isOpen seen =>
          rw [← seen]
          cases container <;> simp [Container.value, nestedText, Outline.nestedText, isOpen]
      | @list ref closed =>
          have shut : opened.contains (.list ref) = false := by simpa using closed
          have items : ∀ item ∈ (heap.list ref).toList,
              nestedText heap fuel (.list ref :: opened) depth item =
                (heap.outlineFrom (.list ref :: opened) item).nestedText heap depth := by
            intro item member
            have deeper := Heap.unopened_cons_lt (Heap.list_mem_containers member) shut
            exact ih _ depth item (by omega)
          rw [Outline.nestedText_list, Outline.listText, List.isEmpty_map, List.isEmpty_map,
            List.map_map]
          simp only [nestedText, shut, Bool.false_eq_true, if_false]
          rw [List.map_congr_left items]
          rfl
      | @object ref closed =>
          have shut : opened.contains (.object ref) = false := by simpa using closed
          have entries : ∀ entry ∈ (heap.object ref).visible,
              nestedText heap fuel (.object ref :: opened) (depth + 1) entry.2.value =
                (heap.outlineFrom (.object ref :: opened) entry.2.value).nestedText heap
                  (depth + 1) := by
            intro entry member
            have allocated := Heap.object_mem_containers (Object.mem_disclosed_of_visible member)
            have deeper := Heap.unopened_cons_lt allocated shut
            exact ih _ (depth + 1) entry.2.value (by omega)
          rw [Outline.nestedText_object]
          simp only [nestedText, shut, Bool.false_eq_true, if_false, List.map_map, List.all_map,
            Function.comp_def, Heap.value_outlineFrom]
          congr 1
          refine List.map_congr_left fun entry member => ?_
          have deep := entries entry member
          rw [Outline.entryText, Heap.value_outlineFrom]
          cases holds : entry.2.value with
          | function f => simp only [Heap.propertyText]
          | _ =>
              rw [holds] at deep
              simp only [deep]

theorem Value.toText_eq (heap : Heap) (value : Value) :
    value.toText heap = (heap.outline value).text heap := by
  have enough := heap.unopened_le []
  have outlines := heap.outlines_outlineFrom [] value
  rw [toText, nestedText_eq heap _ [] 0 value (by omega), Heap.outline]
  generalize heap.outlineFrom [] value = outline at outlines
  cases outlines with
  | plain plain => rw [plain]; rfl
  | mark isOpen seen => cases isOpen
  | list closed => rfl
  | object closed => rfl

/-! ## Values that unfold to the same tree -/

/-- Equal numbers have the same text, as both zeros have. -/
theorem Number.text_eq_of_beq {x y : Float} (same : (x == y) = true) :
    Number.text x = Number.text y := by
  have zeros : Number.text 0 = Number.text (-0) := by decide +kernel
  obtain ⟨-, -, rfl | ⟨rfl, rfl⟩ | ⟨rfl, rfl⟩⟩ := Float.beq_iff_ne_nan_and_eq.mp same
  · rfl
  · exact zeros
  · exact zeros.symm

theorem List.map_eq_map_iff_zip {α β γ : Type} {f : α → γ} {g : β → γ} {as : List α} {bs : List β} :
    as.map f = bs.map g ↔ as.length = bs.length ∧ ∀ pair ∈ as.zip bs, f pair.1 = g pair.2 := by
  rw [← List.forall₂_eq_eq_eq, List.forall₂_map_left_iff, List.forall₂_map_right_iff,
    List.forall₂_iff_zip]
  simp only [Prod.forall]

theorem List.eq_of_mem_zip_self {α : Type} {as : List α} {pair : α × α}
    (member : pair ∈ as.zip as) : pair.1 = pair.2 :=
  (List.map_eq_map_iff_zip (f := id) (g := id).mp rfl).2 pair member

namespace Value

/-- The values, each seen in a heap of its own, unfold to the same tree: the leaves are equal, and
containers have the same shape, keys, flags and classes. -/
inductive SameUnfolding (left right : Heap) : Value → Value → Prop where
  | null : SameUnfolding left right .null .null
  | bool (b : Bool) : SameUnfolding left right (.bool b) (.bool b)
  | text (s : String) : SameUnfolding left right (.text s) (.text s)
  | number {x y : Float} (equal : x = y ∨ (x == y) = true) :
    SameUnfolding left right (.number x) (.number y)
  | function {f g : FunctionRef} (named : (left.function f).name = (right.function g).name) :
    SameUnfolding left right (.function f) (.function g)
  | class {c d : ClassRef} (named : (left.class c).name = (right.class d).name) :
    SameUnfolding left right (.class c) (.class d)
  | list {ref twin : ListRef}
    (size : (left.list ref).toList.length = (right.list twin).toList.length)
    (items : ∀ pair ∈ (left.list ref).toList.zip (right.list twin).toList,
      SameUnfolding left right pair.1 pair.2) : SameUnfolding left right (.list ref) (.list twin)
  | object {ref twin : ObjectRef}
    (classes : (left.classOf? ref).map (fun cls => (left.class cls).name) =
      (right.classOf? twin).map fun cls => (right.class cls).name)
    (shown : (left.object ref).visible.map (fun entry => (entry.1, entry.2.access)) =
      (right.object twin).visible.map fun entry => (entry.1, entry.2.access))
    (values : ∀ pair ∈ (left.object ref).visible.zip (right.object twin).visible,
      SameUnfolding left right pair.1.2.value pair.2.2.value) :
    SameUnfolding left right (.object ref) (.object twin)

variable {left right : Heap} {value twin : Value}

theorem SameUnfolding.symm (same : SameUnfolding left right value twin) :
    SameUnfolding right left twin value := by
  induction same with
  | null => exact .null
  | bool b => exact .bool b
  | text s => exact .text s
  | number equal =>
      refine .number (equal.imp Eq.symm fun equal => ?_)
      obtain ⟨proper, properToo, same⟩ := Float.beq_iff_ne_nan_and_eq.mp equal
      exact Float.beq_iff_ne_nan_and_eq.mpr ⟨properToo, proper, by tauto⟩
  | function named => exact .function named.symm
  | «class» named => exact .class named.symm
  | list size items ih =>
      refine .list size.symm fun pair member => ?_
      rw [← List.zip_swap] at member
      obtain ⟨swapped, among, rfl⟩ := List.mem_map.mp member
      exact ih swapped among
  | object classes shown values ih =>
      refine .object classes.symm shown.symm fun pair member => ?_
      rw [← List.zip_swap] at member
      obtain ⟨swapped, among, rfl⟩ := List.mem_map.mp member
      exact ih swapped among

theorem SameUnfolding.isContainer_eq (same : SameUnfolding left right value twin) :
    value.isContainer = twin.isContainer := by
  cases same <;> rfl

theorem SameUnfolding.plainText_eq (same : SameUnfolding left right value twin) :
    value.plainText left = twin.plainText right := by
  cases same with
  | number equal => exact equal.elim (congrArg Number.text) Number.text_eq_of_beq
  | function named => rw [plainText, plainText, named]
  | «class» named => rw [plainText, plainText, named]
  | _ => rfl

/-- What has an unfolding that ends has no cycles. -/
theorem SameUnfolding.not_isCyclic (same : SameUnfolding left right value twin) :
    ¬left.IsCyclic value := by
  induction same with
  | list size items ih =>
      intro cyclic
      obtain ⟨inner, nests, further⟩ := cyclic.inner
      cases nests with
      | item member =>
          obtain ⟨other, pair⟩ := List.exists_mem_zip size member
          exact ih _ pair further
  | object classes shown values ih =>
      intro cyclic
      obtain ⟨inner, nests, further⟩ := cyclic.inner
      cases nests with
      | field member =>
          have size := (List.map_eq_map_iff_zip.mp shown).1
          obtain ⟨other, pair⟩ := List.exists_mem_zip size (List.mem_of_mem_filter member)
          exact ih _ pair further
  | _ =>
      intro cyclic
      obtain ⟨inner, nests, -⟩ := cyclic.inner
      cases nests

/-- The walks through the values make the same text wherever they set out, as long as all open
containers enclose the value. -/
def InStep (left right : Heap) (value twin : Value) : Prop :=
  ∀ (opened others : List Container) (depth : Nat),
    (∀ container ∈ opened, left.Encloses container.value value) →
    (∀ container ∈ others, right.Encloses container.value twin) →
    (left.outlineFrom opened value).nestedText left depth =
      (right.outlineFrom others twin).nestedText right depth

theorem SameUnfolding.inStep_plain (same : SameUnfolding left right value twin)
    (plain : value.isContainer = false) : InStep left right value twin := by
  intro opened others depth _ _
  rw [Heap.outlineFrom_plain plain, Heap.outlineFrom_plain (same.isContainer_eq ▸ plain)]
  have plainText := same.plainText_eq
  cases same with
  | text s => rw [Outline.nestedText, Outline.nestedText]
  | list size items => cases plain
  | object classes shown values => cases plain
  | _ => simpa only [Outline.nestedText] using plainText

theorem SameUnfolding.inStep_list {ref twin : ListRef}
    (same : SameUnfolding left right (.list ref) (.list twin))
    (size : (left.list ref).toList.length = (right.list twin).toList.length)
    (items : ∀ pair ∈ (left.list ref).toList.zip (right.list twin).toList,
      InStep left right pair.1 pair.2) : InStep left right (.list ref) (.list twin) := by
  intro opened others depth around aroundTwin
  have closed := Heap.closed_of_encloses (.list ref) same.not_isCyclic around
  have closedTwin := Heap.closed_of_encloses (.list twin) same.symm.not_isCyclic aroundTwin
  rw [Heap.outlineFrom_list closed, Heap.outlineFrom_list closedTwin, Outline.nestedText_list,
    Outline.nestedText_list, List.map_map, List.map_map]
  refine congrArg Outline.listText (List.map_eq_map_iff_zip.mpr ⟨size, fun pair member => ?_⟩)
  obtain ⟨mine, theirs⟩ := List.of_mem_zip member
  refine items pair member _ _ depth ?_ ?_
  · exact Heap.encloses_cons (.list ref) (.item mine) around
  · exact Heap.encloses_cons (.list twin) (.item theirs) aroundTwin

/-- Functions are shown by their names, and everything else by its own text. -/
theorem SameUnfolding.entryText_eq {entry other : String × Access × Outline} {depth : Nat}
    (same : SameUnfolding left right entry.2.2.value other.2.2.value)
    (shown : (entry.1, entry.2.1) = (other.1, other.2.1))
    (deep : entry.2.2.value.type ≠ .function → other.2.2.value.type ≠ .function →
      entry.2.2.nestedText left depth = other.2.2.nestedText right depth) :
    Outline.entryText left depth entry = Outline.entryText right depth other := by
  obtain ⟨key, access⟩ := Prod.mk.inj shown
  rw [Outline.entryText, Outline.entryText, key, access]
  generalize entry.2.2.value = first at same deep
  generalize other.2.2.value = second at same deep
  cases same with
  | function named => simp only [Heap.propertyText, named]
  | _ => simp only [deep nofun nofun]

theorem SameUnfolding.inStep_object {ref twin : ObjectRef}
    (same : SameUnfolding left right (.object ref) (.object twin))
    (inner : ∀ pair ∈ (left.object ref).visible.zip (right.object twin).visible,
      InStep left right pair.1.2.value pair.2.2.value) :
    InStep left right (.object ref) (.object twin) := by
  intro opened others depth around aroundTwin
  have closed := Heap.closed_of_encloses (.object ref) same.not_isCyclic around
  have closedTwin := Heap.closed_of_encloses (.object twin) same.symm.not_isCyclic aroundTwin
  cases same with
  | object classes shown values =>
      obtain ⟨size, flags⟩ := List.map_eq_map_iff_zip.mp shown
      rw [Heap.outlineFrom_object closed, Heap.outlineFrom_object closedTwin,
        Outline.nestedText_object, Outline.nestedText_object]
      simp only [List.map_map, List.all_map, Function.comp_def, Heap.value_outlineFrom]
      congr 1
      · rw [Heap.title_eq, Heap.title_eq, classes]
      · refine List.map_eq_map_iff_zip.mpr ⟨size, fun pair member => ?_⟩
        obtain ⟨mine, theirs⟩ := List.of_mem_zip member
        refine SameUnfolding.entryText_eq ?_ (flags pair member) ?_
        · simpa only [Heap.value_outlineFrom] using values pair member
        · simp only [Heap.value_outlineFrom]
          intro noFunction noFunctionTwin
          refine inner pair member _ _ _ ?_ ?_
          · refine Heap.encloses_cons (.object ref) (.field ?_) around
            exact List.mem_filter.mpr ⟨mine, by simpa using noFunction⟩
          · refine Heap.encloses_cons (.object twin) (.field ?_) aroundTwin
            exact List.mem_filter.mpr ⟨theirs, by simpa using noFunctionTwin⟩
      · have simple : (left.object ref).visible.map (fun entry => !entry.2.value.isContainer) =
            (right.object twin).visible.map fun entry => !entry.2.value.isContainer :=
          List.map_eq_map_iff_zip.mpr
            ⟨size, fun pair member => by rw [(values pair member).isContainer_eq]⟩
        have all := congrArg (List.all · id) simple
        simpa only [List.all_map, Function.comp_def, id] using all

/-- The walks through two values with one unfolding go in step: neither meets an open container,
as those enclose the value, so both go into the same things. -/
theorem SameUnfolding.inStep (same : SameUnfolding left right value twin) :
    InStep left right value twin := by
  induction same with
  | list size items ih => exact (SameUnfolding.list size items).inStep_list size ih
  | object classes shown values ih =>
      exact (SameUnfolding.object classes shown values).inStep_object ih
  | null => exact SameUnfolding.null.inStep_plain rfl
  | bool b => exact (SameUnfolding.bool b).inStep_plain rfl
  | text s => exact (SameUnfolding.text s).inStep_plain rfl
  | number equal => exact (SameUnfolding.number equal).inStep_plain rfl
  | function named => exact (SameUnfolding.function named).inStep_plain rfl
  | «class» named => exact (SameUnfolding.class named).inStep_plain rfl

theorem SameUnfolding.toText_eq (same : SameUnfolding left right value twin) :
    value.toText left = twin.toText right := by
  have enough := left.unopened_le []
  have enoughTwin := right.unopened_le []
  rw [toText, toText, Value.nestedText_eq left _ [] 0 value (by omega),
    Value.nestedText_eq right _ [] 0 twin (by omega), same.isContainer_eq, same.plainText_eq,
    same.inStep [] [] 0 (List.forall_mem_nil _) (List.forall_mem_nil _)]

/-- What holds nothing but values with an unfolding has one. -/
theorem SameUnfolding.of_inner {heap : Heap} {value : Value}
    (inner : ∀ item, heap.Nests value item → SameUnfolding heap heap item item) :
    SameUnfolding heap heap value value := by
  cases value with
  | null => exact .null
  | bool b => exact .bool b
  | text s => exact .text s
  | number x => exact .number (.inl rfl)
  | function f => exact .function rfl
  | «class» c => exact .class rfl
  | list ref =>
      refine .list rfl fun pair member => ?_
      have same := List.eq_of_mem_zip_self member
      exact same ▸ inner pair.1 (.item (List.of_mem_zip member).1)
  | object ref =>
      refine .object rfl rfl fun pair member => ?_
      have same := List.eq_of_mem_zip_self member
      rw [← same]
      by_cases function : pair.1.2.value.type = .function
      · cases holds : pair.1.2.value <;> rw [holds] at function <;> cases function
        exact .function rfl
      · refine inner pair.1.2.value (.field ?_)
        exact List.mem_filter.mpr ⟨(List.of_mem_zip member).1, by simpa using function⟩

end Value

/-- A part without cycles has an unfolding.  The induction is on its size. -/
theorem Outline.Depicts.sameUnfolding {heap : Heap} {outline : Outline} {value : Value}
    (depicts : outline.Depicts heap value) (size : Nat) :
    ∀ route part, outline.HasPart route part → sizeOf part < size → ¬heap.IsCyclic part.value →
      Value.SameUnfolding heap heap part.value part.value := by
  induction size with
  | zero => exact fun _ _ _ impossible => absurd impossible (Nat.not_lt_zero _)
  | succ size ih =>
      intro route part hasPart bounded acyclic
      have unmarked : part.isMark = false := Bool.eq_false_iff.mpr fun isMark =>
        Heap.not_encloses_self acyclic (depicts.encloses_mark hasPart isMark).2
      refine .of_inner fun item nests => ?_
      obtain ⟨route, seen, hasSeen, rfl, smaller⟩ := depicts.exists_part hasPart unmarked nests
      exact ih route seen hasSeen (by omega) fun cyclic => acyclic (cyclic.outer nests)

namespace Value

theorem sameUnfolding_self_iff {heap : Heap} {value : Value} :
    SameUnfolding heap heap value value ↔ ¬heap.IsCyclic value := by
  refine ⟨fun unfolds => unfolds.not_isCyclic, fun acyclic => ?_⟩
  have depicts := heap.outline_depicts value
  have unfolds := depicts.sameUnfolding _ [] _ .whole (Nat.lt_succ_self _)
  rw [depicts.whole] at unfolds
  exact unfolds acyclic

/-- Rendering reads the outline of the value, so it ends, and it marks the cycles and nothing
else.  The text of a value without cycles depends on its unfolding only, not on what it shares. -/
theorem toText_of_outline (heap : Heap) (value : Value) :
    (∃ outline : Outline, outline.Depicts heap value ∧ value.toText heap = outline.text heap ∧
      (heap.IsCyclic value ↔ ∃ route part, outline.HasPart route part ∧ part.isMark = true)) ∧
    (¬heap.IsCyclic value ↔ SameUnfolding heap heap value value) ∧
    ∀ (other : Heap) (twin : Value), SameUnfolding heap other value twin →
      value.toText heap = twin.toText other := by
  have depicts := heap.outline_depicts value
  exact ⟨⟨heap.outline value, depicts, toText_eq heap value, depicts.isCyclic_iff⟩,
    sameUnfolding_self_iff.symm, fun _ _ => SameUnfolding.toText_eq⟩

/-- A list that holds another one twice has the text of a list that holds two of them. -/
theorem toText_of_outline_shared :
    let shared : Heap := { lists := #[#[.text "a"], #[.list ⟨0⟩, .list ⟨0⟩]] }
    let apart : Heap := { lists := #[#[.text "a"], #[.text "a"], #[.list ⟨0⟩, .list ⟨1⟩]] }
    SameUnfolding shared apart (.list ⟨1⟩) (.list ⟨2⟩) ∧
    (Value.list ⟨1⟩).toText shared = (Value.list ⟨2⟩).toText apart := by
  intro shared apart
  have inner (index : Nat) (isOne : index = 0 ∨ index = 1) :
      SameUnfolding shared apart (.list ⟨0⟩) (.list ⟨index⟩) := by
    obtain rfl | rfl := isOne
    all_goals exact .list rfl (List.forall_mem_singleton.mpr (.text "a"))
  have same : SameUnfolding shared apart (.list ⟨1⟩) (.list ⟨2⟩) := by
    refine .list rfl (List.forall_mem_cons.mpr ⟨inner 0 (.inl rfl), ?_⟩)
    exact List.forall_mem_singleton.mpr (inner 1 (.inr rfl))
  exact ⟨same, (toText_of_outline shared (.list ⟨1⟩)).2.2 apart (.list ⟨2⟩) same⟩

/-- A list that holds itself, twice. -/
example :
    let heap : Heap := { lists := #[#[.list ⟨0⟩, .list ⟨0⟩]] }
    (Value.list ⟨0⟩).toText heap = "[ [/*cycle*/], [/*cycle*/] ]" := rfl

end Value

end Hati
