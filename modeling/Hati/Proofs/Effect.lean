import Hati.Proofs.Code
import Hati.Property

namespace Hati

/-!
# What evaluation can do to the heap

Evaluation changes the heap in small steps, and each step is one of the effects
listed here, with the conditions under which it is taken.  Whatever holds of
every effect therefore holds of every evaluation, and an invariant of the heap
is shown once for each effect instead of once for each rule of the language.

Some effects are open only to code that owns what it changes.  A permit says
which names may be declared in which frames and which may be assigned to, which
objects may be given properties without asking their restrictions, which code may be
stored, and whether objects may be cleared.
-/

/-- What the effects of an evaluation are limited to. -/
structure Permit where
  /-- The code of stored functions and classes. -/
  code : Code → Prop
  /-- Names that may be declared in a frame, whatever the frame holds. -/
  declares : FrameRef → String → Prop
  /-- Names that may get a new value where they are bound. -/
  assigns : String → Prop := fun _ => True
  /-- Objects that may be given properties directly. -/
  owns : ObjectRef → Prop
  /-- Whether objects may lose all their properties. -/
  clears : Prop

namespace Heap

/-- All code of the functions and classes in the heap is of the given kind. -/
structure Stores (code : Code → Prop) (heap : Heap) : Prop where
  functions : ∀ ref decl scope, (heap.function ref).body = .closure decl scope →
    ∀ part ∈ decl.parts, code part
  classes : ∀ ref, ∀ part ∈ (heap.class ref).decl.parts, code part

/-- One change of the heap that evaluation makes. -/
inductive Effect (permit : Permit) : Heap → Heap → Prop where
  | allocFrame (heap : Heap) (parent : FrameRef) :
    Effect permit heap (heap.allocFrame { parent := some parent }).2
  | allocList (heap : Heap) (items : Array Value) : Effect permit heap (heap.allocList items).2
  | allocObject (heap : Heap) (object : Object) (distinct : object.properties.keys.Nodup) :
    Effect permit heap (heap.allocObject object).2
  | allocBuiltin (heap : Heap) (builtin : Builtin) :
    Effect permit heap (heap.allocFunction (.ofBuiltin builtin)).2
  | allocClosure (heap : Heap) (decl : FunctionDecl) (scope : FrameRef)
    (stored : ∀ part ∈ decl.parts, permit.code part) :
    Effect permit heap (heap.allocFunction (.ofDecl decl scope)).2
  | allocClass (heap : Heap) (cls : Class) (stored : ∀ part ∈ cls.decl.parts, permit.code part) :
    Effect permit heap (heap.allocClass cls).2
  | declare (heap : Heap) (frame : FrameRef) (name : String) (binding : Binding)
    (permitted : permit.declares frame name) : Effect permit heap (heap.bind frame name binding)
  | assign (heap : Heap) (frame : FrameRef) (name : String) (value : Value) (old : Binding)
    (bound : heap.localBinding? frame name = some old) (changeable : old.isConstant = false)
    (permitted : permit.assigns name) : Effect permit heap (heap.bind frame name { value })
  | modifyList (heap : Heap) (ref : ListRef) (f : Array Value → Array Value) :
    Effect permit heap (heap.modifyList ref f)
  | insert (heap : Heap) (ref : ObjectRef) (key : String) (property : Property)
    (owned : permit.owns ref) :
    Effect permit heap (heap.modifyObject ref fun object => object.insert key property)
  | add (heap : Heap) (ref : ObjectRef) (key : String) (value : Value) (span : Span)
    (thawed : (heap.object ref).isFrozen = false)
    (absent : (heap.object ref).properties.get? key = none) :
    Effect permit heap (heap.modifyObject ref fun object => object.insert key { value, span })
  | replace (heap : Heap) (ref : ObjectRef) (key : String) (value : Value) (old : Property)
    (thawed : (heap.object ref).isFrozen = false)
    (present : (heap.object ref).properties.get? key = some old)
    (writable : old.access.isReadonly = false) :
    Effect permit heap (heap.modifyObject ref fun object => object.replaceValue key value)
  | freeze (heap : Heap) (ref : ObjectRef) :
    Effect permit heap (heap.modifyObject ref fun object => { object with isFrozen := true })
  | clear (heap : Heap) (ref : ObjectRef) (permitted : permit.clears) :
    Effect permit heap (heap.modifyObject ref Object.clear)

/-- The heap is changed by effects alone. -/
abbrev Path (permit : Permit) (heap after : Heap) : Prop :=
  Relation.ReflTransGen (Effect permit) heap after

variable {permit : Permit} {heap after : Heap}

/-! ## Effects by the store they change -/

/-- The frames are changed by a new frame, by a permitted declaration, or by a
new value for a variable that is not constant. -/
theorem Effect.frames_cases (effect : Effect permit heap after) :
    after.frames = heap.frames ∨
    (∃ parent, after.frames = heap.frames.push { parent := some parent }) ∨
    ∃ frame name binding,
      after.frames = (heap.bind frame name binding).frames ∧
        (permit.declares frame name ∨
          ∃ old, heap.localBinding? frame name = some old ∧ old.isConstant = false ∧
            binding.isConstant = false) := by
  cases effect with
  | allocFrame parent => exact .inr (.inl ⟨parent, rfl⟩)
  | declare frame name binding permitted =>
      exact .inr (.inr ⟨frame, name, binding, rfl, .inl permitted⟩)
  | assign frame name value old bound changeable _ =>
      exact .inr (.inr ⟨frame, name, { value }, rfl, .inr ⟨old, bound, changeable, rfl⟩⟩)
  | _ => exact .inl rfl

/-! ## Nothing is taken away -/

theorem Effect.size_frames_le (effect : Effect permit heap after) :
    heap.frames.size ≤ after.frames.size := by
  rcases effect.frames_cases with same | ⟨parent, same⟩ | ⟨frame, name, binding, same, -⟩ <;>
    simp [same, Heap.bind]

theorem Effect.size_objects_le (effect : Effect permit heap after) :
    heap.objects.size ≤ after.objects.size := by
  cases effect <;>
    simp [Heap.allocFrame, Heap.allocList, Heap.allocObject, Heap.allocFunction, Heap.allocClass,
      Heap.bind, Heap.modifyList, Heap.modifyObject]

theorem Effect.size_lists_le (effect : Effect permit heap after) :
    heap.lists.size ≤ after.lists.size := by
  cases effect <;>
    simp [Heap.allocFrame, Heap.allocList, Heap.allocObject, Heap.allocFunction, Heap.allocClass,
      Heap.bind, Heap.modifyList, Heap.modifyObject]

theorem Path.size_frames_le (path : Path permit heap after) :
    heap.frames.size ≤ after.frames.size := by
  induction path with
  | refl => exact Nat.le_refl _
  | tail _ effect ih => exact Nat.le_trans ih effect.size_frames_le

theorem Path.size_objects_le (path : Path permit heap after) :
    heap.objects.size ≤ after.objects.size := by
  induction path with
  | refl => exact Nat.le_refl _
  | tail _ effect ih => exact Nat.le_trans ih effect.size_objects_le

theorem Path.size_lists_le (path : Path permit heap after) :
    heap.lists.size ≤ after.lists.size := by
  induction path with
  | refl => exact Nat.le_refl _
  | tail _ effect ih => exact Nat.le_trans ih effect.size_lists_le

theorem modify_push_size {α : Type} (cells : Array α) (cell : α) (change : α → α) :
    (cells.push cell).modify cells.size change = cells.push (change cell) := by
  refine Array.ext (by simp) fun index bound _ => ?_
  rw [Array.getElem_modify, Array.getElem_push, Array.getElem_push]
  rw [Array.size_modify, Array.size_push] at bound
  rcases Nat.lt_succ_iff_lt_or_eq.mp bound with older | rfl
  · simp [older, Nat.ne_of_gt older]
  · simp

/-- Binding a name in a frame that was just allocated. -/
theorem bind_allocFrame (heap : Heap) (frame : Frame) (name : String) (binding : Binding) :
    (heap.allocFrame frame).2.bind (heap.allocFrame frame).1 name binding =
      (heap.allocFrame { frame with bindings := frame.bindings.insert name binding }).2 := by
  simp only [Heap.bind, Heap.allocFrame, modify_push_size]

theorem frame_of_frames_push {ref : FrameRef} {frame : Frame}
    (same : after.frames = heap.frames.push frame) (allocated : ref.index < heap.frames.size) :
    after.frame ref = heap.frame ref := by
  have apart : ref.index ≠ heap.frames.size := Nat.ne_of_lt allocated
  simp [Heap.frame, same, Array.getElem?_push, apart]

theorem frame_of_frames_bind {ref frame : FrameRef} {name : String} {binding : Binding}
    (same : after.frames = (heap.bind frame name binding).frames) :
    after.frame ref = (heap.bind frame name binding).frame ref := by
  simp only [Heap.frame, same]

theorem parent_frame_bind (heap : Heap) (frame ref : FrameRef) (name : String)
    (binding : Binding) :
    ((heap.bind frame name binding).frame ref).parent = (heap.frame ref).parent := by
  simp only [Heap.bind, Heap.frame, Array.getD_eq_getD_getElem?, Array.getElem?_modify]
  split
  · cases heap.frames[ref.index]? <;> rfl
  · rfl

/-- Binding a name changes what one frame holds under that name, and nothing else. -/
theorem localBinding?_bind {ref : FrameRef} (allocated : ref.index < heap.frames.size)
    (frame : FrameRef) (name other : String) (binding : Binding) :
    (heap.bind frame name binding).localBinding? ref other =
      if ref = frame ∧ other = name then some binding else heap.localBinding? ref other := by
  unfold Heap.localBinding?
  by_cases sameFrame : ref = frame
  · subst sameFrame
    rw [frame_bind_self heap ref name binding allocated]
    by_cases sameName : other = name
    · simp [sameName]
    · simp [sameName, Dict.get?_insert_of_ne sameName]
  · simp [sameFrame, frame_bind_of_ne sameFrame]

theorem Effect.parent_frame (effect : Effect permit heap after) {ref : FrameRef}
    (allocated : ref.index < heap.frames.size) :
    (after.frame ref).parent = (heap.frame ref).parent := by
  rcases effect.frames_cases with same | ⟨parent, same⟩ | ⟨frame, name, binding, same, -⟩
  · simp only [Heap.frame, same]
  · rw [frame_of_frames_push same allocated]
  · rw [frame_of_frames_bind same, parent_frame_bind]

theorem Effect.isSome_localBinding? (effect : Effect permit heap after) {ref : FrameRef}
    (allocated : ref.index < heap.frames.size) {name : String}
    (bound : (heap.localBinding? ref name).isSome) : (after.localBinding? ref name).isSome := by
  rcases effect.frames_cases with same | ⟨parent, same⟩ | ⟨frame, key, binding, same, -⟩
  · simpa only [Heap.localBinding?, Heap.frame, same] using bound
  · simpa only [Heap.localBinding?, frame_of_frames_push same allocated] using bound
  · have moved :
        after.localBinding? ref name = (heap.bind frame key binding).localBinding? ref name := by
      simp only [Heap.localBinding?, frame_of_frames_bind same]
    rw [moved, localBinding?_bind allocated]
    split
    · rfl
    · exact bound

theorem Path.parent_frame (path : Path permit heap after) {ref : FrameRef}
    (allocated : ref.index < heap.frames.size) :
    (after.frame ref).parent = (heap.frame ref).parent := by
  induction path with
  | refl => rfl
  | tail path effect ih =>
      exact (effect.parent_frame (Nat.lt_of_lt_of_le allocated (Path.size_frames_le path))).trans ih

theorem Path.isSome_localBinding? (path : Path permit heap after) {ref : FrameRef}
    (allocated : ref.index < heap.frames.size) {name : String}
    (bound : (heap.localBinding? ref name).isSome) : (after.localBinding? ref name).isSome := by
  induction path with
  | refl => exact bound
  | tail path effect ih =>
      exact effect.isSome_localBinding? (Nat.lt_of_lt_of_le allocated (Path.size_frames_le path)) ih

/-- A frame outside the heap is empty. -/
theorem frame_of_size_le {ref : FrameRef} (outside : heap.frames.size ≤ ref.index) :
    heap.frame ref = {} := by
  simp [Heap.frame, Array.getElem?_eq_none outside]

private theorem Path.any_framesFrom (path : Path permit heap after) (name : String) :
    ∀ (count : Nat) (ref : FrameRef),
      (heap.framesFrom count ref).any (fun ref => (heap.frame ref).bindings.contains name) = true →
      (after.framesFrom count ref).any (fun ref => (after.frame ref).bindings.contains name) = true
  | 0, _, found => found
  | count + 1, ref, found => by
      -- A frame outside the heap holds nothing, so the name is found in allocated frames.
      by_cases allocated : ref.index < heap.frames.size
      · simp only [Heap.framesFrom, List.any_cons, Bool.or_eq_true] at found ⊢
        rw [path.parent_frame allocated]
        rcases found with here | further
        · left
          rw [Dict.contains_eq_isSome_get?] at here ⊢
          exact path.isSome_localBinding? allocated here
        · right
          cases outer : (heap.frame ref).parent with
          | none => simp [outer] at further
          | some parent =>
              simp only [outer] at further
              exact path.any_framesFrom name count parent further
      · have empty := frame_of_size_le (Nat.le_of_not_lt allocated)
        simp [Heap.framesFrom, empty, Dict.contains] at found

/-- A name that is bound in a scope stays bound there. -/
theorem Path.isBound (path : Path permit heap after) {scope : FrameRef} {name : String}
    (bound : heap.isBound scope name = true) : after.isBound scope name = true :=
  path.any_framesFrom name _ scope bound

/-! ## Names -/

theorem contains_bindings (heap : Heap) (ref : FrameRef) (name : String) :
    (heap.frame ref).bindings.contains name = (heap.localBinding? ref name).isSome :=
  Dict.contains_eq_isSome_get? _ _

/-- The frame that owns a name binds it. -/
theorem isSome_localBinding?_of_frameOf? {scope owner : FrameRef} {name : String}
    (found : heap.frameOf? scope name = some owner) :
    (heap.localBinding? owner name).isSome = true := by
  have owns := List.find?_some found
  rwa [contains_bindings] at owns

/-- What is found under a name is bound in the scope. -/
theorem isBound_of_lookup? {scope : FrameRef} {name : String} {binding : Binding}
    (found : heap.lookup? scope name = some binding) : heap.isBound scope name = true := by
  obtain ⟨frame, inChain, bound⟩ := List.exists_of_findSome?_eq_some found
  refine List.any_eq_true.mpr ⟨frame, inChain, ?_⟩
  rw [contains_bindings]
  exact Option.isSome_of_eq_some bound

/-- An assignment goes to a variable that is there, or else declares the name in
the innermost frame. -/
theorem assignmentFrame_cases {scope owner : FrameRef} {name : String}
    (chosen : heap.assignmentFrame scope name = .ok owner) :
    (∃ old, heap.localBinding? owner name = some old ∧ old.isConstant = false) ∨
      owner = scope ∧ heap.isBound scope name = false := by
  unfold Heap.assignmentFrame at chosen
  cases nearest : heap.frameOf? scope name with
  | none =>
      simp only [nearest, Except.ok.injEq] at chosen
      refine .inr ⟨chosen.symm, ?_⟩
      simpa [Heap.isBound, Heap.frameOf?] using nearest
  | some frame =>
      simp only [nearest] at chosen
      split at chosen
      · cases chosen
      · cases chosen
        rename_i changeable
        have present := isSome_localBinding?_of_frameOf? nearest
        obtain ⟨old, bound⟩ := Option.isSome_iff_exists.mp present
        exact .inl ⟨old, bound, by simpa [bound] using changeable⟩

/-! ## Properties -/

/-- A write to an object that is not frozen adds a key that is not there, or
replaces a value that is not readonly. -/
theorem writeEffect_cases {scope : FrameRef} {ref : ObjectRef} {key : String}
    {effect : WriteEffect} (chosen : heap.writeEffect scope ref key = .ok effect) :
    effect = .ignored ∧ (heap.object ref).isFrozen = true ∨
      (heap.object ref).isFrozen = false ∧
        (effect = .added ∧ (heap.object ref).properties.get? key = none ∨
          effect = .replaced ∧ ∃ old, (heap.object ref).properties.get? key = some old ∧
            old.access.isReadonly = false) := by
  unfold Heap.writeEffect at chosen
  cases frozen : (heap.object ref).isFrozen with
  | true =>
      simp only [frozen, if_true, Except.ok.injEq] at chosen
      exact .inl ⟨chosen.symm, rfl⟩
  | false =>
      simp only [frozen, Bool.false_eq_true, if_false] at chosen
      refine .inr ⟨rfl, ?_⟩
      cases present : (heap.object ref).properties.get? key with
      | none =>
          simp only [present, Except.ok.injEq] at chosen
          exact .inl ⟨chosen.symm, rfl⟩
      | some old =>
          simp only [present] at chosen
          split at chosen
          · cases chosen
          · rename_i writable
            refine .inr ⟨?_, old, rfl, by simpa using writable⟩
            split at chosen
            · cases chosen
              rfl
            · split at chosen <;> cases chosen
              rfl

/-! ## Stored code -/

theorem function_allocFunction (heap : Heap) (function : Function) (ref : FunctionRef) :
    (heap.allocFunction function).2.function ref =
      if ref.index = heap.functions.size then function else heap.function ref := by
  simp only [Heap.allocFunction, Heap.function, Array.getD_eq_getD_getElem?, Array.getElem?_push]
  split <;> rfl

@[simp]
theorem function_allocFunction_self (heap : Heap) (function : Function) :
    (heap.allocFunction function).2.function (heap.allocFunction function).1 = function := by
  rw [function_allocFunction]
  exact if_pos rfl

theorem class_allocClass (heap : Heap) (cls : Class) (ref : ClassRef) :
    (heap.allocClass cls).2.class ref =
      if ref.index = heap.classes.size then cls else heap.class ref := by
  simp only [Heap.allocClass, Heap.class, Array.getD_eq_getD_getElem?, Array.getElem?_push]
  split <;> rfl

private theorem Stores.allocFunction {code : Code → Prop} (stored : heap.Stores code)
    {function : Function}
    (parts : ∀ decl scope, function.body = .closure decl scope → ∀ part ∈ decl.parts, code part) :
    (heap.allocFunction function).2.Stores code := by
  refine ⟨?_, stored.classes⟩
  intro ref decl scope body
  rw [function_allocFunction] at body
  split at body
  · exact parts decl scope body
  · exact stored.functions ref decl scope body

/-- A heap without functions and classes stores no code. -/
theorem Stores.ofEmpty (functions : heap.functions = #[]) (classes : heap.classes = #[])
    (code : Code → Prop) : heap.Stores code where
  functions ref decl scope body := by
    simp [Heap.function, functions, default, Function.ofBuiltin] at body
  classes ref part member := by
    simp [Heap.class, classes, default, ClassDecl.parts] at member

theorem Effect.stores (effect : Effect permit heap after) (stored : heap.Stores permit.code) :
    after.Stores permit.code := by
  cases effect with
  | allocBuiltin builtin =>
      apply stored.allocFunction
      intro decl scope body
      cases body
  | allocClosure decl scope parts =>
      apply stored.allocFunction
      intro decl scope body
      cases body
      exact parts
  | allocClass cls parts =>
      refine ⟨stored.functions, ?_⟩
      intro ref
      rw [class_allocClass]
      split
      · exact parts
      · exact stored.classes ref
  | _ => exact ⟨stored.functions, stored.classes⟩

theorem Path.stores (path : Path permit heap after) (stored : heap.Stores permit.code) :
    after.Stores permit.code := by
  induction path with
  | refl => exact stored
  | tail _ effect ih => exact effect.stores ih

end Heap

end Hati
