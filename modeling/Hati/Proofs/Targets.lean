import Hati.Proofs.Outline
import Hati.Proofs.Resolution
import Hati.Proofs.ReturnPropagation
import Hati.Proofs.StaticPrivacy

namespace Hati

/-!
# What is stored is read back

A value is stored under a name, at an index of a list, an object or a class, or as a member.
Names, lists and objects are written and read in ways of their own, each with its own
restrictions, and what one way has written the other one finds.  A store changes one place and
nothing else, and a store that fails changes nothing at all.

Objects and classes are indexed by the text of a value.  If the value shows the object that is
written, the store may change this text, and then the same index leads to another property.
-/

/-! ## Places -/

/-- Where a value can be put. -/
inductive Place where
  | variable (frame : FrameRef) (name : String)
  | item (ref : ListRef) (position : Nat)
  | property (ref : ObjectRef) (key : String)

/-- What an assignment makes of the property under a key: one that is there keeps its restrictions
and the place of its declaration, a new one has no restrictions. -/
def Object.assigned (object : Object) (key : String) (value : Value) (span : Span) : Property :=
  match object.properties.get? key with
  | some old => { old with value }
  | none => { value, span }

theorem Object.value_assigned (object : Object) (key : String) (value : Value) (span : Span) :
    (object.assigned key value span).value = value := by
  unfold assigned
  split <;> rfl

namespace Heap

/-- The variable was given the value, and nothing else was changed. -/
structure PutsVariable (before after : Heap) (frame : FrameRef) (name : String) (value : Value) :
    Prop where
  elsewhere : after = { before with frames := after.frames }
  count : after.frames.size = before.frames.size
  parents : ∀ ref, (after.frame ref).parent = (before.frame ref).parent
  written : after.localBinding? frame name = some { value, isConstant := false }
  others : ∀ ref other, ¬(ref = frame ∧ other = name) →
    after.localBinding? ref other = before.localBinding? ref other

/-- The value was put at the position, and nothing else was changed, except that a list that was too
short was filled up with nulls. -/
structure PutsItem (before after : Heap) (ref : ListRef) (position : Nat) (value : Value) :
    Prop where
  elsewhere : after = { before with lists := after.lists }
  count : after.lists.size = before.lists.size
  lists : ∀ other, other ≠ ref → after.list other = before.list other
  bound : position < maxListLength
  length : (after.list ref).size = max (before.list ref).size (position + 1)
  written : (after.list ref)[position]? = some value
  filled : ∀ other, (before.list ref).size ≤ other → other < position →
    (after.list ref)[other]? = some .null
  others : ∀ other, other < (before.list ref).size → other ≠ position →
    (after.list ref)[other]? = (before.list ref)[other]?

/-- The property was given the value, and nothing else was changed; a new key comes last. -/
structure PutsProperty (before after : Heap) (ref : ObjectRef) (key : String) (value : Value)
    (span : Span) : Prop where
  elsewhere : after = { before with objects := after.objects }
  count : after.objects.size = before.objects.size
  objects : ∀ other, other ≠ ref → after.object other = before.object other
  isFrozen : (after.object ref).isFrozen = (before.object ref).isFrozen
  keys : (after.object ref).properties.keys =
    if (before.object ref).properties.contains key then (before.object ref).properties.keys
    else (before.object ref).properties.keys ++ [key]
  written : (after.object ref).properties.get? key =
    some ((before.object ref).assigned key value span)
  others : ∀ other, other ≠ key →
    (after.object ref).properties.get? other = (before.object ref).properties.get? other

/-- The value was put at the place, and nothing else was changed. -/
def Puts (before after : Heap) (value : Value) (span : Span) : Place → Prop
  | .variable frame name => before.PutsVariable after frame name value
  | .item ref position => before.PutsItem after ref position value
  | .property ref key => before.PutsProperty after ref key value span

variable {heap : Heap} {value : Value} {span : Span}

/-! ## Variables -/

theorem putsVariable_bind {frame : FrameRef} (allocated : heap.HasFrame frame) (name : String)
    (value : Value) : heap.PutsVariable (heap.bind frame name { value }) frame name value where
  elsewhere := rfl
  count := Array.size_modify
  parents ref := parent_frame_bind heap frame ref name { value }
  written := by rw [localBinding?_bind allocated, if_pos ⟨rfl, rfl⟩]
  others _ _ apart := localBinding?_bind_of_ne apart

/-! ## Items -/

end Heap

theorem size_placeAt (items : Array Value) (position : Nat) (value : Value) :
    (placeAt items position value).size = max items.size (position + 1) := by
  unfold placeAt
  split
  · rename_i inside
    simp only [Array.size_setIfInBounds]
    omega
  · simp only [Array.size_push, Array.size_append, Array.size_replicate]
    omega

theorem getElem?_placeAt (items : Array Value) (position : Nat) (value : Value) (other : Nat) :
    (placeAt items position value)[other]? =
      if other = position then some value
      else if other < items.size then items[other]?
      else if other < position then some .null else none := by
  unfold placeAt
  split
  · rename_i inside
    rw [Array.getElem?_setIfInBounds]
    split
    · rename_i same
      simp [← same]
    · rename_i apart
      rw [if_neg (Ne.symm apart)]
      split
      · rfl
      · rw [if_neg (by omega), Array.getElem?_eq_none (by omega)]
  · rename_i outside
    rw [Array.getElem?_push, Array.getElem?_append, Array.getElem?_replicate, Array.size_append,
      Array.size_replicate]
    by_cases same : other = position
    · rw [if_pos (by omega), if_pos same]
    · rw [if_neg (by omega), if_neg same]
      split
      · rfl
      · by_cases before : other < position
        · rw [if_pos (by omega), if_pos before]
        · rw [if_neg (by omega), if_neg before]

/-- A position that can be written is that of the index, and not too far out. -/
theorem toIndex_of_writePosition {index : Value} {position : Nat}
    (chosen : writePosition index = .ok position) :
    position < maxListLength ∧ index.toIndex = .ok (Int.ofNat position) := by
  unfold writePosition at chosen
  cases known : index.toIndex with
  | error cause =>
      rw [known] at chosen
      cases chosen
  | ok whole =>
      rw [known] at chosen
      change (if whole < 0 then .error .negativeIndex
        else if maxListLength ≤ whole.toNat then .error (.indexTooLarge whole maxListLength)
        else .ok whole.toNat : Except Cause Nat) = .ok position at chosen
      split at chosen
      · cases chosen
      · split at chosen
        · cases chosen
        · cases chosen
          exact ⟨by omega, by rw [Int.ofNat_eq_natCast, Int.toNat_of_nonneg (by omega)]⟩

theorem elementAt_ofNat (items : Array Value) (position : Nat) :
    elementAt items (Int.ofNat position) = items[position]?.getD .null := by
  rw [elementAt, if_neg (by simp), Array.getD_eq_getD_getElem?]
  rfl

theorem Heap.putsItem_placeAt {heap : Heap} {ref : ListRef} {position : Nat}
    (allocated : heap.Holds (.list ref)) (bound : position < maxListLength) (value : Value) :
    heap.PutsItem (heap.modifyList ref fun items => placeAt items position value) ref position
      value := by
  have here : (heap.modifyList ref fun items => placeAt items position value).list ref =
      placeAt (heap.list ref) position value := list_modifyList_self heap ref _ allocated
  exact {
    elsewhere := rfl
    count := Array.size_modify
    lists := fun other apart => list_modifyList_of_ne apart heap _
    bound := bound
    length := by rw [here, size_placeAt]
    written := by rw [here, getElem?_placeAt, if_pos rfl]
    filled := fun other outside before => by
      rw [here, getElem?_placeAt, if_neg (by omega), if_neg (by omega), if_pos before]
    others := fun other inside apart => by
      rw [here, getElem?_placeAt, if_neg apart, if_pos inside] }

namespace Heap

variable {heap : Heap} {ref : ObjectRef} {key : String} {value : Value} {span : Span}
  {scope : FrameRef}

/-! ## Properties -/

/-- Assign to a property, whatever its restrictions. -/
def putProperty (heap : Heap) (ref : ObjectRef) (key : String) (value : Value) (span : Span) :
    Heap :=
  heap.modifyObject ref fun object => object.insert key (object.assigned key value span)

theorem putsProperty_putProperty (allocated : heap.Holds (.object ref)) (key : String)
    (value : Value) (span : Span) :
    heap.PutsProperty (heap.putProperty ref key value span) ref key value span := by
  have here : (heap.putProperty ref key value span).object ref =
      (heap.object ref).insert key ((heap.object ref).assigned key value span) :=
    object_modifyObject_self heap ref _ allocated
  exact {
    elsewhere := rfl
    count := Array.size_modify
    objects := fun other apart => object_modifyObject_of_ne apart heap _
    isFrozen := by rw [here]; rfl
    keys := by rw [here]; exact Dict.keys_insert _ _ _
    written := by rw [here]; exact Dict.get?_insert_self _ _ _
    others := fun other apart => by rw [here]; exact Dict.get?_insert_of_ne apart _ _ }

theorem receivers_modifyObject (heap : Heap) (ref : ObjectRef) (change : Object → Object)
    (scope : FrameRef) : (heap.modifyObject ref change).receivers scope = heap.receivers scope := by
  have chain : (heap.modifyObject ref change).scopeChain scope = heap.scopeChain scope :=
    framesFrom_congr _ scope fun _ _ => rfl
  rw [receivers, chain]
  rfl

/-- Changing an object shuts no code out of it: that the object is linked to a class gets code into
the static side of the class, but not into the object itself. -/
theorem isInternal_modifyObject (internal : heap.isInternal scope ref = true)
    (change : Object → Object) : (heap.modifyObject ref change).isInternal scope ref = true := by
  obtain ⟨receiver, bound, inside⟩ := List.any_eq_true.mp internal
  rw [← receivers_modifyObject heap ref change scope] at bound
  refine List.any_eq_true.mpr ⟨receiver, bound, ?_⟩
  cases receiver with
  | object own =>
      -- The receiver is the object itself, or it is linked to a class as it was before.
      by_cases same : own = ref
      · simp [same]
      · have link : (heap.modifyObject ref change).classOf? own = heap.classOf? own := by
          rw [classOf?, object_modifyObject_of_ne same, classOf?]
        show (own == ref || ((heap.modifyObject ref change).classOf? own).any
          fun cls => (heap.class cls).statics == ref) = true
        rw [link]
        exact inside
  | _ => exact inside

end Heap

namespace Run

theorem writeProperty_apply (ref : ObjectRef) (key : String) (value : Value) (scope : FrameRef)
    (span : Span) (machine : Machine) :
    writeProperty ref key value scope span machine =
      match machine.heap.writeEffect scope ref key with
      | .ok .ignored => .ok () machine
      | .ok _ => .ok () { machine with heap := machine.heap.putProperty ref key value span }
      | .error cause => .error (.fault ⟨cause, span⟩) machine := by
  show (Run.lift span (machine.heap.writeEffect scope ref key) >>= _) machine = _
  cases chosen : machine.heap.writeEffect scope ref key with
  | error cause => rfl
  | ok effect =>
      rcases Heap.writeEffect_cases chosen with
        ⟨rfl, -⟩ | ⟨-, ⟨rfl, absent⟩ | ⟨rfl, old, present, -⟩⟩
      · rfl
      · have puts : (machine.heap.modifyObject ref fun object =>
            object.insert key { value, span }) = machine.heap.putProperty ref key value span :=
          Heap.modifyObject_congr (by rw [Object.assigned, absent])
        exact congrArg (fun heap => EStateM.Result.ok () { machine with heap }) puts
      · have puts : (machine.heap.modifyObject ref fun object => object.replaceValue key value) =
            machine.heap.putProperty ref key value span :=
          Heap.modifyObject_congr (by rw [Object.assigned, Object.replaceValue, present])
        exact congrArg (fun heap => EStateM.Result.ok () { machine with heap }) puts

end Run

section Properties

variable {ev : Evaluator} {ref : ObjectRef} {key : String} {value : Value} {scope : FrameRef}
  {span : Span} {machine : Machine} {property : Property}

/-- A property that is open to the code of the scope and computes nothing reads as its value. -/
theorem Evaluator.readProperty_of_stored
    (stored : (machine.heap.object ref).properties.get? key = some property)
    (isOpen : property.access.isPrivate = true → machine.heap.isInternal scope ref = true)
    (plain : property.access.isReadonly = false) :
    ev.readProperty ref key scope span machine = .ok property.value machine := by
  have readable : machine.heap.readableProperty scope ref key = .ok (some property) := by
    unfold Heap.readableProperty
    rw [stored]
    refine if_neg fun kept => ?_
    obtain ⟨isPrivate, outside⟩ := Bool.and_eq_true_iff.mp kept
    rw [isOpen isPrivate] at outside
    cases outside
  show (Run.lift span (machine.heap.readableProperty scope ref key) >>= _) machine = _
  have computesNothing : property.isGetter = false := by simp [Property.isGetter, plain]
  rw [readable]
  show (if property.isGetter then ev.call property.value (some (.object ref)) [] scope span
    else pure property.value : Run Value) machine = _
  rw [computesNothing]
  rfl

/-- How an assignment to a property ends. -/
inductive PropertyStore (ref : ObjectRef) (key : String) (value : Value) (scope : FrameRef)
    (span : Span) (before : Machine) : EStateM.Result Halt Machine Unit → Prop where
  | refused (halt : Halt) : PropertyStore ref key value scope span before (.error halt before)
  | ignored (frozen : (before.heap.object ref).isFrozen = true) :
    PropertyStore ref key value scope span before (.ok () before)
  | put (thawed : (before.heap.object ref).isFrozen = false)
    (isOpen : ((before.heap.object ref).assigned key value span).access.isPrivate = true →
      before.heap.isInternal scope ref = true)
    (writable : ((before.heap.object ref).assigned key value span).access.isReadonly = false) :
    PropertyStore ref key value scope span before
      (.ok () { before with heap := before.heap.putProperty ref key value span })

theorem Run.propertyStore_writeProperty (ref : ObjectRef) (key : String) (value : Value)
    (scope : FrameRef) (span : Span) (machine : Machine) :
    PropertyStore ref key value scope span machine
      (writeProperty ref key value scope span machine) := by
  rw [writeProperty_apply]
  cases chosen : machine.heap.writeEffect scope ref key with
  | error cause => exact .refused _
  | ok effect =>
      rcases Heap.writeEffect_cases chosen with
        ⟨rfl, frozen⟩ | ⟨thawed, ⟨rfl, absent⟩ | ⟨rfl, old, present, writable⟩⟩
      · exact .ignored frozen
      · have made : (machine.heap.object ref).assigned key value span = { value, span } := by
          rw [Object.assigned, absent]
        exact .put thawed (by rw [made]; nofun) (by rw [made])
      · have kept : (machine.heap.object ref).assigned key value span = { old with value } := by
          rw [Object.assigned, present]
        refine .put thawed ?_ (by rw [kept]; exact writable)
        rw [kept]
        exact fun (isPrivate : old.access.isPrivate = true) =>
          Heap.isInternal_of_writable isPrivate present chosen

end Properties

/-! ## Texts -/

namespace Value

variable {heap : Heap} {ref : ObjectRef} {value : Value}

/-- The text of a value does not depend on an object that the value does not show. -/
theorem nestedText_modifyObject (change : Object → Object) (fuel : Nat) :
    ∀ (opened : List Container) (depth : Nat) (value : Value),
      ¬heap.Reaches value (.object ref) →
      nestedText (heap.modifyObject ref change) fuel opened depth value =
        nestedText heap fuel opened depth value := by
  induction fuel with
  | zero => exact fun _ _ _ _ => rfl
  | succ fuel ih =>
      intro opened depth value apart
      cases value with
      | list outer =>
          have items : ∀ item ∈ (heap.list outer).toList,
              nestedText (heap.modifyObject ref change) fuel (.list outer :: opened) depth item =
                nestedText heap fuel (.list outer :: opened) depth item :=
            fun item member => ih _ _ item fun reaches => apart (.head (.item member) reaches)
          simp only [nestedText]
          rw [show (heap.modifyObject ref change).list outer = heap.list outer from rfl,
            List.map_congr_left items]
      | object outer =>
          have other : outer ≠ ref := by
            rintro rfl
            exact apart .refl
          have same : (heap.modifyObject ref change).object outer = heap.object outer :=
            Heap.object_modifyObject_of_ne other heap change
          have link : (heap.modifyObject ref change).classOf? outer = heap.classOf? outer := by
            rw [Heap.classOf?, Heap.classOf?, same]
          simp only [nestedText]
          rw [same, link]
          split
          · rfl
          · refine congrArg₂ (objectLayout.arrange · · _ depth) rfl ?_
            apply List.map_congr_left
            rintro ⟨key, property⟩ member
            have inner : property.value.type ≠ .function →
                nestedText (heap.modifyObject ref change) fuel (.object outer :: opened) (depth + 1)
                  property.value =
                nestedText heap fuel (.object outer :: opened) (depth + 1) property.value := by
              intro isShown
              have nests : heap.Nests (.object outer) property.value :=
                @Heap.Nests.field heap outer (key, property)
                  (List.mem_filter.mpr ⟨member, by simpa using isShown⟩)
              exact ih _ _ _ fun reaches => apart (.head nests reaches)
            dsimp only
            -- Functions are shown by their names, so only other values are gone into.
            cases holds : property.value with
            | function f => rfl
            | _ =>
                rw [holds] at inner
                exact congrArg (key ++ ": " ++ ·) (inner (by rintro ⟨⟩))
      | _ => rfl

theorem toText_modifyObject (apart : ¬heap.Reaches value (.object ref))
    (change : Object → Object) :
    value.toText (heap.modifyObject ref change) = value.toText heap := by
  have count : (heap.modifyObject ref change).containerCount = heap.containerCount :=
    congrArg (heap.lists.size + ·) Array.size_modify
  rw [toText, toText, count, nestedText_modifyObject change _ _ _ value apart]
  rfl

end Value

/-! ## Containers with properties -/

/-- The members that no value can redefine. -/
def reflectiveNames : List String :=
  "aina" :: Value.typeQuestions.map Prod.fst

theorem Value.reflective?_eq_none {name : String} (free : name ∉ reflectiveNames) (value : Value) :
    value.reflective? name = none := by
  obtain ⟨notType, notQuestion⟩ := not_or.mp (mt List.mem_cons.mpr free)
  have unasked : typeQuestions.lookup name = none := by
    refine List.lookup_eq_none_iff.mpr fun question member => ?_
    exact bne_iff_ne.mpr fun same => notQuestion (List.mem_map.mpr ⟨question, member, same.symm⟩)
  rw [reflective?, if_neg (by simpa using notType), unasked]
  rfl

section Members

variable {ev : Evaluator} {container key value : Value} {name : String} {refusal : Cause}
  {ref : ObjectRef} {scope : FrameRef} {span : Span} {machine : Machine}

theorem Heap.members?_putProperty (heap : Heap) (ref : ObjectRef) (key : String) (value : Value)
    (span : Span) (container : Value) :
    (heap.putProperty ref key value span).members? container = heap.members? container := by
  cases container <;> rfl

theorem Run.read_members? {answer : Option ObjectRef}
    (found : machine.heap.members? container = answer) :
    Run.read (fun heap => heap.members? container) machine = .ok answer machine :=
  found ▸ rfl

theorem Run.writeIndex_of_members? (found : machine.heap.members? container = some ref)
    (notList : ∀ list, container ≠ .list list) :
    Run.writeIndex container key value scope span machine =
      Run.writeProperty ref (key.toText machine.heap) value scope span machine := by
  cases container with
  | list list => exact absurd rfl (notList list)
  | object own =>
      cases found
      rfl
  | «class» cls =>
      cases found
      rfl
  | _ => cases found

theorem Evaluator.readIndex_of_members? (found : machine.heap.members? container = some ref)
    (notList : ∀ list, container ≠ .list list) :
    ev.readIndex container key scope span machine =
      ev.readProperty ref (key.toText machine.heap) scope span machine := by
  cases container with
  | list list => exact absurd rfl (notList list)
  | object own =>
      cases found
      rfl
  | «class» cls =>
      cases found
      rfl
  | _ => cases found

theorem Run.writeMember_of_members? (found : machine.heap.members? container = some ref) :
    Run.writeMember container name value refusal scope span machine =
      Run.writeProperty ref name value scope span machine :=
  Run.bind_of_ok (Run.read_members? found)

theorem Run.writeMember_of_none (found : machine.heap.members? container = none) :
    Run.writeMember container name value refusal scope span machine =
      .error (.fault ⟨refusal, span⟩) machine :=
  Run.bind_of_ok (Run.read_members? found)

theorem Evaluator.readMember_of_members? (found : machine.heap.members? container = some ref)
    (plain : container.reflective? name = none) :
    ev.readMember container name scope span machine =
      ev.readProperty ref name scope span machine := by
  unfold readMember
  rw [plain]
  exact Run.bind_of_ok (Run.read_members? found)

end Members

/-! ## Targets -/

/-- What a value is stored in, once its parts have been evaluated. -/
inductive Target where
  | name (name : String)
  | index (container index : Value)
  | member (container : Value) (property : String)

namespace Target

def store (target : Target) (value : Value) (scope : FrameRef) (span : Span) : Run Unit :=
  match target with
  | .name identifier => Run.assign scope identifier value span
  | .index container key => Run.writeIndex container key value scope span
  | .member container property =>
    Run.writeMember container property value (.assignedProperty property container.type) scope span

def load (target : Target) (ev : Evaluator) (scope : FrameRef) (span : Span) : Run Value :=
  match target with
  | .name identifier => Run.lookup scope identifier span
  | .index container key => ev.readIndex container key scope span
  | .member container property => ev.readMember container property scope span

/-- The target that an expression comes to. -/
def ofExpr (ev : Evaluator) (scope : FrameRef) (expr : Expr) : Run Target := do
  match expr.node with
  | .name identifier => pure (.name identifier)
  | .index object key _ =>
    let container ← ev.eval object scope
    return .index container (← ev.eval key scope)
  | .member object property _ => return .member (← ev.eval object scope) property
  | _ => Run.fail .assignmentTarget expr.span

/-- An assignment evaluates the parts of its target, then the value, and stores it. -/
theorem assign_eq (ev : Evaluator) (expr value : Expr) (scope : FrameRef) (span : Span) :
    ev.assign expr value scope span = (do
      let target ← ofExpr ev scope expr
      target.store (← ev.eval value scope) scope span) := by
  obtain ⟨node, place⟩ := expr
  cases node with
  | name identifier => rfl
  | index object key isOptional =>
      simp only [Evaluator.assign, ofExpr, store, bind_assoc, pure_bind]
  | member object property isOptional =>
      simp only [Evaluator.assign, ofExpr, store, bind_assoc, pure_bind]
  | _ => rfl

/-- The scope and the container were given out by the heap. -/
def IsHeld (heap : Heap) (scope : FrameRef) : Target → Prop
  | .name _ => heap.HasFrame scope
  | .index container _ | .member container _ => heap.Holds container

/-- The object that the target is a property of. -/
def object? (heap : Heap) : Target → Option ObjectRef
  | .name _ => none
  | .index container _ | .member container _ => heap.members? container

/-- The place that the target stands for. -/
def place? (heap : Heap) (scope : FrameRef) : Target → Option Place
  | .name identifier => some (.variable (heap.assignee scope identifier) identifier)
  | .index (.list ref) key => (writePosition key).toOption.map fun position => .item ref position
  | .index container key => (heap.members? container).map fun ref => .property ref (key.toText heap)
  | .member container property => (heap.members? container).map fun ref => .property ref property

/-- The name of the member cannot be redefined. -/
def IsReflective : Target → Prop
  | .member _ property => property ∈ reflectiveNames
  | _ => False

/-- The index shows the object that it leads into. -/
def ShowsContainer (heap : Heap) : Target → Prop
  | .index container key =>
    ∃ ref, heap.members? container = some ref ∧ heap.Reaches key (.object ref)
  | _ => False

/-- If the target is in an object, its index has the same text in both heaps. -/
def KeepsIndex (before after : Heap) : Target → Prop
  | .index container key =>
    ∀ ref, before.members? container = some ref → key.toText after = key.toText before
  | _ => True

/-- How a store can end. -/
inductive Stored (target : Target) (value : Value) (scope : FrameRef) (span : Span)
    (before : Machine) : EStateM.Result Halt Machine Unit → Prop where
  | failed (halt : Halt) : Stored target value scope span before (.error halt before)
  | ignored {ref : ObjectRef} (inside : target.object? before.heap = some ref)
    (frozen : (before.heap.object ref).isFrozen = true) :
    Stored target value scope span before (.ok () before)
  | put {place : Place} {after : Machine}
    (thawed : ∀ ref, target.object? before.heap = some ref →
      (before.heap.object ref).isFrozen = false)
    (leads : target.place? before.heap scope = some place)
    (elsewhere : after = { before with heap := after.heap })
    (puts : before.heap.Puts after.heap value span place)
    (keeps : ¬target.ShowsContainer before.heap → target.KeepsIndex before.heap after.heap)
    (loads : target.KeepsIndex before.heap after.heap → ¬target.IsReflective →
      ∀ (ev : Evaluator) (reading : Span), target.load ev scope reading after = .ok value after) :
    Stored target value scope span before (.ok () after)

theorem place?_index {heap : Heap} {scope : FrameRef} {container : Value}
    (notList : ∀ list, container ≠ .list list) (key : Value) :
    (Target.index container key).place? heap scope =
      (heap.members? container).map fun ref => .property ref (key.toText heap) := by
  cases container with
  | list list => exact absurd rfl (notList list)
  | _ => rfl

section Stores

variable {target : Target} {value : Value} {scope : FrameRef} {span : Span} {machine : Machine}

theorem stored_name {identifier : String} (inside : machine.heap.HasFrame scope) :
    Stored (.name identifier) value scope span machine
      (Run.assign scope identifier value span machine) := by
  rw [Run.assign_apply]
  by_cases constant :
      machine.heap.HoldsConstant (machine.heap.assignee scope identifier) identifier
  · rw [Heap.assignmentFrame_of_holdsConstant constant]
    exact .failed _
  · rw [Heap.assignmentFrame_of_not_holdsConstant constant]
    have allocated := Heap.allocated_assignee inside identifier
    refine .put (fun _ impossible => nomatch impossible) rfl rfl
      (Heap.putsVariable_bind allocated identifier value) (fun _ => trivial) ?_
    intro _ _ ev reading
    show Run.lookup scope identifier reading _ = _
    rw [Run.lookup_apply, Heap.lookup?_bind allocated, if_pos (Heap.frameOf?_bind_assignee inside)]

theorem stored_item {ref : ListRef} {key : Value} (held : machine.heap.Holds (.list ref)) :
    Stored (.index (.list ref) key) value scope span machine
      (Run.writeIndex (.list ref) key value scope span machine) := by
  show Stored _ _ _ _ _ ((Run.lift span (writePosition key) >>= _) machine)
  cases chosen : writePosition key with
  | error cause => exact .failed _
  | ok position =>
      obtain ⟨bound, index⟩ := toIndex_of_writePosition chosen
      have puts := Heap.putsItem_placeAt held bound value
      have leads : (Target.index (.list ref) key).place? machine.heap scope =
          some (.item ref position) := by
        rw [place?, chosen]
        rfl
      refine .put (fun _ impossible => nomatch impossible) leads rfl puts
        (fun _ _ impossible => nomatch impossible) ?_
      intro _ _ ev reading
      show (Run.lift reading key.toIndex >>= _) _ = _
      rw [index]
      refine congrArg (EStateM.Result.ok · _) ?_
      exact (elementAt_ofNat _ position).trans (congrArg (Option.getD · .null) puts.written)

theorem stored_property {ref : ObjectRef} {key : String}
    (held : machine.heap.Holds (.object ref))
    (inside : target.object? machine.heap = some ref)
    (leads : target.place? machine.heap scope = some (.property ref key))
    (keeps : ¬target.ShowsContainer machine.heap →
      target.KeepsIndex machine.heap (machine.heap.putProperty ref key value span))
    (loads : ∀ (ev : Evaluator) (reading : Span) (after : Machine),
      after.heap = machine.heap.putProperty ref key value span →
      target.KeepsIndex machine.heap after.heap → ¬target.IsReflective →
      target.load ev scope reading after = ev.readProperty ref key scope reading after) :
    Stored target value scope span machine
      (Run.writeProperty ref key value scope span machine) := by
  have ends := Run.propertyStore_writeProperty ref key value scope span machine
  generalize Run.writeProperty ref key value scope span machine = result at ends
  cases ends with
  | refused halt => exact .failed halt
  | ignored frozen => exact .ignored inside frozen
  | put thawed isOpen writable =>
      have puts := Heap.putsProperty_putProperty held key value span
      refine .put ?_ leads rfl puts keeps ?_
      · intro other same
        cases inside.symm.trans same
        exact thawed
      · intro index plain ev reading
        let after := { machine with heap := machine.heap.putProperty ref key value span }
        have written : (after.heap.object ref).properties.get? key =
            some ((machine.heap.object ref).assigned key value span) := puts.written
        have reads : ev.readProperty ref key scope reading after =
            .ok ((machine.heap.object ref).assigned key value span).value after :=
          Evaluator.readProperty_of_stored written
            (fun isPrivate => Heap.isInternal_modifyObject (isOpen isPrivate) _) writable
        rw [loads ev reading after rfl index plain, reads, Object.value_assigned]

theorem stored_index {container key : Value} {ref : ObjectRef}
    (held : machine.heap.Holds (.object ref)) (found : machine.heap.members? container = some ref)
    (notList : ∀ list, container ≠ .list list) :
    Stored (.index container key) value scope span machine
      (Run.writeIndex container key value scope span machine) := by
  rw [Run.writeIndex_of_members? found notList]
  refine stored_property held found ?_ ?_ ?_
  · exact (place?_index notList key).trans (congrArg _ found)
  · intro apart other same
    cases found.symm.trans same
    exact Value.toText_modifyObject (fun reaches => apart ⟨ref, found, reaches⟩) _
  · intro ev reading after puts index _
    have still : after.heap.members? container = some ref := by
      rw [puts, Heap.members?_putProperty, found]
    show ev.readIndex container key scope reading after = _
    rw [Evaluator.readIndex_of_members? still notList, index ref found]

theorem stored_member {container : Value} {property : String} {ref : ObjectRef}
    (held : machine.heap.Holds (.object ref))
    (found : machine.heap.members? container = some ref) :
    Stored (.member container property) value scope span machine
      (Run.writeProperty ref property value scope span machine) := by
  have leads : (Target.member container property).place? machine.heap scope =
      some (.property ref property) := by
    rw [place?, found]
    rfl
  refine stored_property held found leads (fun _ => trivial) ?_
  intro ev reading after puts _ plain
  have still : after.heap.members? container = some ref := by
    rw [puts, Heap.members?_putProperty, found]
  show ev.readMember container property scope reading after = _
  exact Evaluator.readMember_of_members? still (Value.reflective?_eq_none plain container)

/-- A store fails and changes nothing, or finds a frozen object and changes nothing, or it puts the
value at the place that the target stands for and changes nothing else.  What was put there is read
from the same target without running any code, except under a reflective name, and except where the
store has changed the text of the index; that it can do only if the index shows the container. -/
theorem store_stored (formed : machine.heap.WellFormed) (held : target.IsHeld machine.heap scope)
    (value : Value) (span : Span) :
    Stored target value scope span machine (target.store value scope span machine) := by
  cases target with
  | name identifier => exact stored_name held
  | index container key =>
      cases container with
      | list ref => exact stored_item held
      | object ref => exact stored_index held rfl nofun
      | «class» ref => exact stored_index (formed.classes ref held).statics rfl nofun
      | _ => exact .failed _
  | member container property =>
      show Stored _ _ _ _ _ (Run.writeMember container property value
        (.assignedProperty property container.type) scope span machine)
      cases found : machine.heap.members? container with
      | none =>
          rw [Run.writeMember_of_none found]
          exact .failed _
      | some ref =>
          rw [Run.writeMember_of_members? found]
          exact stored_member (formed.members? held found) found

end Stores

/-- A machine with an object that is empty. -/
def oneObject : Machine :=
  { Machine.bare {} none with heap := ((Machine.bare {} none).heap.allocObject {}).2 }

theorem oneObject_wellFormed : oneObject.heap.WellFormed :=
  (Heap.revises_allocObject fun _ member => absurd member List.not_mem_nil).wellFormed
    (Machine.bare_wellFormed {} none .lenient).heap

/-- A new member of the object is read back. -/
theorem store_stored_member :
    let target : Target := .member (.object ⟨0⟩) "k"
    target.IsHeld oneObject.heap ⟨0⟩ ∧
    ∃ after, target.store (.bool true) ⟨0⟩ {} oneObject = .ok () after ∧
      ∀ (ev : Evaluator) (span : Span),
        target.load ev ⟨0⟩ span after = .ok (.bool true) after := by
  intro target
  have held : target.IsHeld oneObject.heap ⟨0⟩ := Nat.zero_lt_one
  have stored := store_stored oneObject_wellFormed held (.bool true) {}
  refine ⟨held, ?_⟩
  cases ends : target.store (.bool true) ⟨0⟩ {} oneObject with
  | error halt after => cases ends
  | ok done after =>
      rw [ends] at stored
      refine ⟨after, rfl, ?_⟩
      cases stored with
      | ignored inside frozen =>
          cases inside
          cases frozen
      | put thawed leads elsewhere puts keeps loads =>
          have free : "k" ∉ reflectiveNames := by decide
          exact loads trivial free

/-- If an object is stored into under its own text, its text changes, and what was stored is not
found any more. -/
theorem load_of_itself :
    let target : Target := .index (.object ⟨0⟩) (.object ⟨0⟩)
    oneObject.heap.WellFormed ∧ target.IsHeld oneObject.heap ⟨0⟩ ∧
    (oneObject.heap.object ⟨0⟩).isFrozen = false ∧
    ∃ after, target.store (.bool true) ⟨0⟩ {} oneObject = .ok () after ∧
      ∀ (ev : Evaluator) (span : Span), target.load ev ⟨0⟩ span after = .ok .null after := by
  exact ⟨oneObject_wellFormed, Nat.zero_lt_one, rfl, _, rfl, fun ev span => rfl⟩

end Target

end Hati
