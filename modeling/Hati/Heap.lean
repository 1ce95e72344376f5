import Hati.Value

namespace Hati

/-!
# The heap

All cells that values and scopes refer to.  Each kind of cell has its own
store, a reference is the position in that store, and allocation only ever adds
a cell at the end: a reference stays good for the life of the heap, and a cell
can only hold references to cells that were there when it was written.

A reference outside the heap reads as an empty cell.  Evaluation never makes
one, because references come from allocation only.
-/

structure Heap where
  frames : Array Frame := #[]
  lists : Array (Array Value) := #[]
  objects : Array Object := #[]
  functions : Array Function := #[]
  classes : Array Class := #[]
deriving Inhabited

namespace Heap

/-! ## Reading cells -/

def frame (heap : Heap) (ref : FrameRef) : Frame :=
  heap.frames.getD ref.index {}

def list (heap : Heap) (ref : ListRef) : Array Value :=
  heap.lists.getD ref.index #[]

def object (heap : Heap) (ref : ObjectRef) : Object :=
  heap.objects.getD ref.index {}

def function (heap : Heap) (ref : FunctionRef) : Function :=
  heap.functions.getD ref.index default

def «class» (heap : Heap) (ref : ClassRef) : Class :=
  heap.classes.getD ref.index default

/-! ## Allocating cells -/

def allocFrame (heap : Heap) (frame : Frame) : FrameRef × Heap :=
  (⟨heap.frames.size⟩, { heap with frames := heap.frames.push frame })

def allocList (heap : Heap) (items : Array Value) : ListRef × Heap :=
  (⟨heap.lists.size⟩, { heap with lists := heap.lists.push items })

def allocObject (heap : Heap) (object : Object) : ObjectRef × Heap :=
  (⟨heap.objects.size⟩, { heap with objects := heap.objects.push object })

def allocFunction (heap : Heap) (function : Function) : FunctionRef × Heap :=
  (⟨heap.functions.size⟩, { heap with functions := heap.functions.push function })

def allocClass (heap : Heap) (cls : Class) : ClassRef × Heap :=
  (⟨heap.classes.size⟩, { heap with classes := heap.classes.push cls })

/-! ## Writing cells -/

/-- Bind a name in one frame, replacing a binding of that frame. -/
def bind (heap : Heap) (ref : FrameRef) (name : String) (binding : Binding) : Heap :=
  { heap with frames := heap.frames.modify ref.index fun frame =>
      { frame with bindings := frame.bindings.insert name binding } }

def modifyList (heap : Heap) (ref : ListRef) (f : Array Value → Array Value) : Heap :=
  { heap with lists := heap.lists.modify ref.index f }

def setList (heap : Heap) (ref : ListRef) (items : Array Value) : Heap :=
  heap.modifyList ref fun _ => items

def modifyObject (heap : Heap) (ref : ObjectRef) (f : Object → Object) : Heap :=
  { heap with objects := heap.objects.modify ref.index f }

/-! ## Reading after a write -/

@[simp]
theorem frame_allocFrame (heap : Heap) (frame : Frame) :
    (heap.allocFrame frame).2.frame (heap.allocFrame frame).1 = frame := by
  simp [allocFrame, Heap.frame]

@[simp]
theorem list_allocList (heap : Heap) (items : Array Value) :
    (heap.allocList items).2.list (heap.allocList items).1 = items := by
  simp [allocList, Heap.list]

@[simp]
theorem object_allocObject (heap : Heap) (object : Object) :
    (heap.allocObject object).2.object (heap.allocObject object).1 = object := by
  simp [allocObject, Heap.object]

/-- Changing a list that exists changes what is read from it. -/
theorem list_modifyList_self (heap : Heap) (ref : ListRef) (f : Array Value → Array Value)
    (allocated : ref.index < heap.lists.size) :
    (heap.modifyList ref f).list ref = f (heap.list ref) := by
  simp [modifyList, Heap.list, Array.getD, Array.getElem_modify, allocated]

/-- Changing a list leaves all other lists as they were. -/
theorem list_modifyList_of_ne {ref other : ListRef} (distinct : other ≠ ref) (heap : Heap)
    (f : Array Value → Array Value) : (heap.modifyList ref f).list other = heap.list other := by
  have apart : ref.index ≠ other.index := fun same => distinct (by cases ref; cases other; simp_all)
  simp [modifyList, Heap.list, Array.getD, Array.getElem_modify, apart]

theorem object_modifyObject_self (heap : Heap) (ref : ObjectRef) (f : Object → Object)
    (allocated : ref.index < heap.objects.size) :
    (heap.modifyObject ref f).object ref = f (heap.object ref) := by
  simp [modifyObject, Heap.object, Array.getD, Array.getElem_modify, allocated]

theorem object_modifyObject_of_ne {ref other : ObjectRef} (distinct : other ≠ ref) (heap : Heap)
    (f : Object → Object) : (heap.modifyObject ref f).object other = heap.object other := by
  have apart : ref.index ≠ other.index := fun same => distinct (by cases ref; cases other; simp_all)
  simp [modifyObject, Heap.object, Array.getD, Array.getElem_modify, apart]

theorem frame_bind_self (heap : Heap) (ref : FrameRef) (name : String) (binding : Binding)
    (allocated : ref.index < heap.frames.size) :
    (heap.bind ref name binding).frame ref =
      { heap.frame ref with bindings := (heap.frame ref).bindings.insert name binding } := by
  simp [bind, Heap.frame, Array.getD, Array.getElem_modify, allocated]

theorem frame_bind_of_ne {ref other : FrameRef} (distinct : other ≠ ref) (heap : Heap)
    (name : String) (binding : Binding) :
    (heap.bind ref name binding).frame other = heap.frame other := by
  have apart : ref.index ≠ other.index := fun same => distinct (by cases ref; cases other; simp_all)
  simp [bind, Heap.frame, Array.getD, Array.getElem_modify, apart]

end Heap

end Hati
