import Hati.Lineage
import Hati.Scope

namespace Hati

/-!
# References lead to cells

Values, scopes and classes refer to cells by their position.  A heap is well formed
if every reference stored in it leads to a cell that was allocated, and if the two
relations that are followed outwards, from a frame to its parent and from a class
to its superclass, lead to older cells only.  The graph of the values may have
cycles; these two relations cannot.

What a reference leads to depends on the heap, but a heap only ever grows: a value
that it holds once it holds for good.  An operation therefore has to be judged by
the cells that it writes alone.
-/

namespace Heap

/-! ## What a heap holds -/

/-- The value refers to no cell, or to one that was allocated. -/
def Holds (heap : Heap) : Value → Prop
  | .function ref => ref.index < heap.functions.size
  | .list ref => ref.index < heap.lists.size
  | .object ref => ref.index < heap.objects.size
  | .class ref => ref.index < heap.classes.size
  | _ => True

/-- The scope was allocated. -/
def HasFrame (heap : Heap) (ref : FrameRef) : Prop :=
  ref.index < heap.frames.size

/-- What a frame may be at its place. -/
structure HoldsFrame (heap : Heap) (ref : FrameRef) (frame : Frame) : Prop where
  parent : ∀ parent ∈ frame.parent, parent.index < ref.index
  bindings : ∀ entry ∈ frame.bindings.entries, heap.Holds entry.2.value

def HoldsItems (heap : Heap) (items : List Value) : Prop :=
  ∀ item ∈ items, heap.Holds item

def HoldsObject (heap : Heap) (object : Object) : Prop :=
  ∀ entry ∈ object.properties.entries, heap.Holds entry.2.value

/-- A declared function needs the scope around it, a method of a list its list. -/
def HoldsBody (heap : Heap) : FunctionBody → Prop
  | .closure _ scope => heap.HasFrame scope
  | .builtin (.list _ receiver) => heap.Holds (.list receiver)
  | .builtin _ => True

/-- What a class may be at its place. -/
structure HoldsClass (heap : Heap) (ref : ClassRef) (cls : Class) : Prop where
  superclass : ∀ parent ∈ cls.superclass, parent.index < ref.index
  statics : heap.Holds (.object cls.statics)
  scope : heap.HasFrame cls.scope

/-- All references in the heap lead to cells of the heap, parents and superclasses
to older ones, and each class has a static side of its own. -/
structure WellFormed (heap : Heap) : Prop where
  frames : ∀ ref, heap.HoldsFrame ref (heap.frame ref)
  lists : ∀ ref, heap.HoldsItems (heap.list ref).toList
  objects : ∀ ref, heap.HoldsObject (heap.object ref)
  functions : ∀ ref, heap.HoldsBody (heap.function ref).body
  classes : ∀ ref, heap.Holds (.class ref) → heap.HoldsClass ref (heap.class ref)
  statics : ∀ first second, heap.Holds (.class first) → heap.Holds (.class second) →
    (heap.class first).statics = (heap.class second).statics → first = second

/-! ## Growth -/

/-- Cells were only added; frames kept their parents, and classes stayed as they were. -/
structure Grows (heap after : Heap) : Prop where
  frames : heap.frames.size ≤ after.frames.size := by exact Nat.le_refl _
  lists : heap.lists.size ≤ after.lists.size := by exact Nat.le_refl _
  objects : heap.objects.size ≤ after.objects.size := by exact Nat.le_refl _
  functions : heap.functions.size ≤ after.functions.size := by exact Nat.le_refl _
  classes : heap.classes.size ≤ after.classes.size := by exact Nat.le_refl _
  parents : ∀ ref, heap.HasFrame ref →
    (after.frame ref).parent = (heap.frame ref).parent := by exact fun _ _ => rfl
  declared : ∀ ref, heap.Holds (.class ref) →
    after.class ref = heap.class ref := by exact fun _ _ => rfl

variable {heap middle after : Heap} {value : Value}

theorem Grows.refl (heap : Heap) : heap.Grows heap := {}

theorem HasFrame.mono {ref : FrameRef} (allocated : heap.HasFrame ref)
    (grown : heap.Grows after) : after.HasFrame ref :=
  Nat.lt_of_lt_of_le allocated grown.frames

theorem Holds.mono (held : heap.Holds value) (grown : heap.Grows after) : after.Holds value := by
  cases value with
  | function ref => exact Nat.lt_of_lt_of_le held grown.functions
  | list ref => exact Nat.lt_of_lt_of_le held grown.lists
  | object ref => exact Nat.lt_of_lt_of_le held grown.objects
  | «class» ref => exact Nat.lt_of_lt_of_le held grown.classes
  | _ => trivial

theorem Grows.trans (first : heap.Grows middle) (second : middle.Grows after) :
    heap.Grows after where
  frames := Nat.le_trans first.frames second.frames
  lists := Nat.le_trans first.lists second.lists
  objects := Nat.le_trans first.objects second.objects
  functions := Nat.le_trans first.functions second.functions
  classes := Nat.le_trans first.classes second.classes
  parents ref allocated :=
    (second.parents ref (allocated.mono first)).trans (first.parents ref allocated)
  declared ref held := by
    have still : middle.Holds (.class ref) := held.mono first
    exact (second.declared ref still).trans (first.declared ref held)

theorem HoldsFrame.mono {ref : FrameRef} {frame : Frame} (held : heap.HoldsFrame ref frame)
    (grown : heap.Grows after) : after.HoldsFrame ref frame where
  parent := held.parent
  bindings entry member := (held.bindings entry member).mono grown

theorem HoldsItems.mono {items : List Value} (held : heap.HoldsItems items)
    (grown : heap.Grows after) : after.HoldsItems items :=
  fun item member => (held item member).mono grown

theorem HoldsObject.mono {object : Object} (held : heap.HoldsObject object)
    (grown : heap.Grows after) : after.HoldsObject object :=
  fun entry member => (held entry member).mono grown

theorem HoldsBody.mono {body : FunctionBody} (held : heap.HoldsBody body)
    (grown : heap.Grows after) : after.HoldsBody body := by
  unfold HoldsBody at held ⊢
  split
  · exact HasFrame.mono held grown
  · exact Holds.mono held grown
  · trivial

theorem HoldsClass.mono {ref : ClassRef} {cls : Class} (held : heap.HoldsClass ref cls)
    (grown : heap.Grows after) : after.HoldsClass ref cls where
  superclass := held.superclass
  statics := held.statics.mono grown
  scope := held.scope.mono grown

/-! ## What is read is held -/

section Reading

variable (formed : heap.WellFormed)

include formed

theorem WellFormed.lookup? {scope : FrameRef} {name : String} {binding : Binding}
    (found : heap.lookup? scope name = some binding) : heap.Holds binding.value := by
  obtain ⟨frame, -, bound⟩ := List.exists_of_findSome?_eq_some found
  exact (formed.frames frame).bindings _ (Dict.mem_of_get? bound)

theorem WellFormed.property {ref : ObjectRef} {key : String} {property : Property}
    (found : (heap.object ref).properties.get? key = some property) :
    heap.Holds property.value :=
  formed.objects ref _ (Dict.mem_of_get? found)

theorem WellFormed.members? {ref : ObjectRef} (held : heap.Holds value)
    (found : heap.members? value = some ref) : heap.Holds (.object ref) := by
  cases value with
  | object own =>
      cases found
      exact held
  | «class» cls =>
      cases found
      exact (formed.classes cls held).statics
  | _ => cases found

theorem WellFormed.classOf? {ref : ObjectRef} {cls : ClassRef}
    (linked : heap.classOf? ref = some cls) : heap.Holds (.class cls) := by
  unfold Heap.classOf? at linked
  split at linked
  · rename_i stored
    cases linked
    obtain ⟨property, found, same⟩ := Option.map_eq_some_iff.mp stored
    exact same ▸ formed.property found
  · cases linked

/-- A superclass is older than the class, and so it is allocated as well. -/
theorem WellFormed.superclass {cls parent : ClassRef} (held : heap.Holds (.class cls))
    (above : (heap.class cls).superclass = some parent) : heap.Holds (.class parent) :=
  Nat.lt_trans ((formed.classes cls held).superclass parent above) held

theorem WellFormed.mem_ancestorsFrom {owner : ClassRef} :
    ∀ {count : Nat} {cls : ClassRef}, heap.Holds (.class cls) →
      owner ∈ heap.ancestorsFrom count cls → heap.Holds (.class owner)
  | 0, _, _, member => by cases member
  | count + 1, cls, held, member => by
      rcases List.mem_cons.mp member with rfl | further
      · exact held
      · cases above : (heap.class cls).superclass with
        | none => simp [above] at further
        | some parent =>
            simp only [above] at further
            exact mem_ancestorsFrom (formed.superclass held above) further

theorem WellFormed.findMethod? {cls : ClassRef} (held : heap.Holds (.class cls)) {name : String}
    {chosen : ClassRef × MethodDecl} (found : heap.findMethod? cls name = some chosen) :
    heap.Holds (.class chosen.1) := by
  obtain ⟨owner, member, declares⟩ := List.exists_of_findSome?_eq_some found
  obtain ⟨method, -, rfl⟩ := Option.map_eq_some_iff.mp declares
  exact formed.mem_ancestorsFrom held member

end Reading

/-! ## One operation at a time -/

/-- The heap grew, and every cell is one of before or one that may be there now. -/
structure Revises (heap after : Heap) : Prop where
  grows : heap.Grows after := by exact {}
  frames : ∀ ref, after.frame ref = heap.frame ref ∨
    after.HoldsFrame ref (after.frame ref) := by exact fun _ => .inl rfl
  lists : ∀ ref, after.list ref = heap.list ref ∨
    after.HoldsItems (after.list ref).toList := by exact fun _ => .inl rfl
  objects : ∀ ref, after.object ref = heap.object ref ∨
    after.HoldsObject (after.object ref) := by exact fun _ => .inl rfl
  functions : ∀ ref, after.function ref = heap.function ref ∨
    after.HoldsBody (after.function ref).body := by exact fun _ => .inl rfl
  classes : ∀ ref, after.Holds (.class ref) → heap.Holds (.class ref) ∨
    after.HoldsClass ref (after.class ref) ∧ ∀ other, after.Holds (.class other) →
      (after.class other).statics = (after.class ref).statics →
      other = ref := by exact fun _ held => .inl held

theorem Revises.wellFormed (revised : heap.Revises after) (formed : heap.WellFormed) :
    after.WellFormed where
  frames ref := by
    rcases revised.frames ref with same | held
    · rw [same]
      exact (formed.frames ref).mono revised.grows
    · exact held
  lists ref := by
    rcases revised.lists ref with same | held
    · rw [same]
      exact (formed.lists ref).mono revised.grows
    · exact held
  objects ref := by
    rcases revised.objects ref with same | held
    · rw [same]
      exact (formed.objects ref).mono revised.grows
    · exact held
  functions ref := by
    rcases revised.functions ref with same | held
    · rw [same]
      exact (formed.functions ref).mono revised.grows
    · exact held
  classes ref held := by
    rcases revised.classes ref held with before | ⟨holds, -⟩
    · rw [revised.grows.declared ref before]
      exact (formed.classes ref before).mono revised.grows
    · exact holds
  statics first second firstHeld secondHeld same := by
    rcases revised.classes first firstHeld with firstBefore | ⟨-, own⟩
    · rcases revised.classes second secondHeld with secondBefore | ⟨-, own⟩
      · rw [revised.grows.declared first firstBefore,
          revised.grows.declared second secondBefore] at same
        exact formed.statics first second firstBefore secondBefore same
      · exact own first firstHeld same
    · exact (own second secondHeld same.symm).symm

section Cells

variable {α : Type}

private theorem getD_push (cells : Array α) (cell fallback : α) (index : Nat) :
    (cells.push cell).getD index fallback =
      if index = cells.size then cell else cells.getD index fallback := by
  simp only [Array.getD_eq_getD_getElem?, Array.getElem?_push]
  split <;> rfl

private theorem getD_modify_cases (cells : Array α) (change : α → α) (fallback : α)
    (place index : Nat) :
    (cells.modify place change).getD index fallback = cells.getD index fallback ∨
      (cells.modify place change).getD index fallback = change (cells.getD index fallback) := by
  simp only [Array.getD_eq_getD_getElem?, Array.getElem?_modify]
  split
  · cases cells[index]? with
    | none => exact .inl rfl
    | some cell => exact .inr rfl
  · exact .inl rfl

end Cells

theorem hasFrame_allocFrame (heap : Heap) (frame : Frame) :
    (heap.allocFrame frame).2.HasFrame (heap.allocFrame frame).1 := by
  simp [HasFrame, allocFrame]

theorem holds_allocList (heap : Heap) (items : Array Value) :
    (heap.allocList items).2.Holds (.list (heap.allocList items).1) := by
  simp [Holds, allocList]

theorem holds_allocObject (heap : Heap) (object : Object) :
    (heap.allocObject object).2.Holds (.object (heap.allocObject object).1) := by
  simp [Holds, allocObject]

theorem holds_allocFunction (heap : Heap) (function : Function) :
    (heap.allocFunction function).2.Holds (.function (heap.allocFunction function).1) := by
  simp [Holds, allocFunction]

theorem holds_allocClass (heap : Heap) (cls : Class) :
    (heap.allocClass cls).2.Holds (.class (heap.allocClass cls).1) := by
  simp [Holds, allocClass]

theorem revises_allocFrame {frame : Frame} (held : heap.HoldsFrame ⟨heap.frames.size⟩ frame) :
    heap.Revises (heap.allocFrame frame).2 := by
  have same : ∀ ref, (heap.allocFrame frame).2.frame ref =
      if ref.index = heap.frames.size then frame else heap.frame ref :=
    fun ref => getD_push heap.frames frame {} ref.index
  have grows : heap.Grows (heap.allocFrame frame).2 :=
    { frames := by simp [allocFrame]
      parents := fun ref allocated => by rw [same, if_neg (Nat.ne_of_lt allocated)] }
  refine { grows, frames := fun ref => ?_ }
  rw [same]
  split
  · rename_i fresh
    obtain ⟨index⟩ := ref
    cases fresh
    exact .inr (held.mono grows)
  · exact .inl rfl

theorem revises_allocList {items : Array Value} (held : heap.HoldsItems items.toList) :
    heap.Revises (heap.allocList items).2 := by
  have grows : heap.Grows (heap.allocList items).2 := { lists := by simp [allocList] }
  refine { grows, lists := fun ref => ?_ }
  have same := getD_push heap.lists items #[] ref.index
  split at same
  · exact .inr (by rw [Heap.list, allocList, same]; exact held.mono grows)
  · exact .inl same

theorem revises_allocObject {object : Object} (held : heap.HoldsObject object) :
    heap.Revises (heap.allocObject object).2 := by
  have grows : heap.Grows (heap.allocObject object).2 := { objects := by simp [allocObject] }
  refine { grows, objects := fun ref => ?_ }
  have same := getD_push heap.objects object {} ref.index
  split at same
  · exact .inr (by rw [Heap.object, allocObject, same]; exact held.mono grows)
  · exact .inl same

theorem revises_allocFunction {function : Function} (held : heap.HoldsBody function.body) :
    heap.Revises (heap.allocFunction function).2 := by
  have grows : heap.Grows (heap.allocFunction function).2 :=
    { functions := by simp [allocFunction] }
  refine { grows, functions := fun ref => ?_ }
  have same := getD_push heap.functions function default ref.index
  split at same
  · exact .inr (by rw [Heap.function, allocFunction, same]; exact held.mono grows)
  · exact .inl same

/-- A class is allocated after its superclass and with a static side that is new. -/
theorem revises_allocClass {cls : Class} (held : heap.HoldsClass ⟨heap.classes.size⟩ cls)
    (own : ∀ other, heap.Holds (.class other) → (heap.class other).statics ≠ cls.statics) :
    heap.Revises (heap.allocClass cls).2 := by
  have same : ∀ ref, (heap.allocClass cls).2.class ref =
      if ref.index = heap.classes.size then cls else heap.class ref :=
    fun ref => getD_push heap.classes cls default ref.index
  have older : ∀ ref : ClassRef, heap.Holds (.class ref) →
      (heap.allocClass cls).2.class ref = heap.class ref :=
    fun ref before => by rw [same, if_neg (Nat.ne_of_lt before)]
  have newest : ∀ ref : ClassRef, (heap.allocClass cls).2.Holds (.class ref) →
      heap.Holds (.class ref) ∨ ref = ⟨heap.classes.size⟩ := by
    intro ref allocated
    simp only [Holds, allocClass, Array.size_push] at allocated
    exact (Nat.lt_succ_iff_lt_or_eq.mp allocated).imp_right (congrArg ClassRef.mk)
  have grows : heap.Grows (heap.allocClass cls).2 :=
    { classes := by simp [allocClass], declared := older }
  refine { grows, classes := fun ref allocated => ?_ }
  rcases newest ref allocated with before | rfl
  · exact .inl before
  rw [same, if_pos rfl]
  refine .inr ⟨held.mono grows, fun other otherAllocated clash => ?_⟩
  rcases newest other otherAllocated with before | rfl
  · rw [older other before] at clash
    exact absurd clash (own other before)
  · rfl

theorem revises_bind {frame : FrameRef} {name : String} {binding : Binding}
    (formed : heap.WellFormed) (held : heap.Holds binding.value) :
    heap.Revises (heap.bind frame name binding) := by
  have cases := fun ref : FrameRef => getD_modify_cases heap.frames
    (fun frame => { frame with bindings := frame.bindings.insert name binding }) {}
    frame.index ref.index
  have grows : heap.Grows (heap.bind frame name binding) :=
    { frames := by simp [bind]
      parents := fun ref _ => by
        rcases cases ref with same | same <;> simp only [Heap.frame, bind, same] }
  refine { grows, frames := fun ref => (cases ref).imp_right fun same => ?_ }
  have before := (formed.frames ref).mono grows
  rw [Heap.frame, bind, same]
  refine ⟨before.parent, fun entry member => ?_⟩
  rcases Dict.mem_entries_insert member with rfl | old
  · exact held.mono grows
  · exact before.bindings entry old

theorem revises_modifyList {ref : ListRef} {change : Array Value → Array Value}
    (held : heap.HoldsItems (change (heap.list ref)).toList) :
    heap.Revises (heap.modifyList ref change) := by
  have grows : heap.Grows (heap.modifyList ref change) := { lists := by simp [modifyList] }
  refine { grows, lists := fun other => ?_ }
  by_cases here : other = ref
  · subst here
    rcases getD_modify_cases heap.lists change #[] other.index other.index with same | same
    · exact .inl same
    · exact .inr (by rw [Heap.list, modifyList, same]; exact held.mono grows)
  · exact .inl (list_modifyList_of_ne here heap change)

theorem revises_modifyObject {ref : ObjectRef} {change : Object → Object}
    (held : heap.HoldsObject (change (heap.object ref))) :
    heap.Revises (heap.modifyObject ref change) := by
  have grows : heap.Grows (heap.modifyObject ref change) := { objects := by simp [modifyObject] }
  refine { grows, objects := fun other => ?_ }
  by_cases here : other = ref
  · subst here
    rcases getD_modify_cases heap.objects change {} other.index other.index with same | same
    · exact .inl same
    · exact .inr (by rw [Heap.object, modifyObject, same]; exact held.mono grows)
  · exact .inl (object_modifyObject_of_ne here heap change)

end Heap

end Hati
