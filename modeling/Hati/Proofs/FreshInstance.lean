import Hati.Proofs.Frames
import Hati.Proofs.ReturnPropagation
import Hati.Proofs.Sessions
import Mathlib.Data.List.Forall2

namespace Hati

/-!
# Fresh instances

An instance is made in two passes over its classes, from the base class down: first
all fields are evaluated, each in a scope of its own, and then all methods are
installed.  Both passes write to one table, in which a key stays where it came in
first and reads as what was written to it last.  So the fields give the order of the
keys that they share with methods, and the methods give what these keys stand for.

The initial values are arbitrary code, which may even take the new instance apart.
What is said of the table is said of the instances whose properties are left alone
while the initial values are evaluated.
-/

/-! ## Writing several entries -/

namespace Dict

variable {α : Type}

/-- Write entries one after another. -/
def insertAll (dict : Dict α) (entries : List (String × α)) : Dict α :=
  entries.foldl (fun dict entry => dict.insert entry.1 entry.2) dict

theorem insertAll_append (dict : Dict α) (entries more : List (String × α)) :
    dict.insertAll (entries ++ more) = (dict.insertAll entries).insertAll more :=
  List.foldl_append

theorem mem_keys_iff_contains (dict : Dict α) (key : String) :
    key ∈ dict.keys ↔ dict.contains key = true := by
  simp only [keys, contains, List.mem_map, List.any_eq_true, beq_iff_eq]

theorem keys_insert_eraseDups {dict : Dict α} {names : List String}
    (given : dict.keys = names.eraseDups) (key : String) (value : α) :
    (dict.insert key value).keys = (names ++ [key]).eraseDups := by
  have known : dict.contains key = true ↔ key ∈ names := by
    rw [← mem_keys_iff_contains, given, List.mem_eraseDups]
  rw [keys_insert, List.eraseDups_append, given]
  by_cases member : key ∈ names
  · simp [known.mpr member, List.removeAll, member]
  · have absent : dict.contains key = false :=
      Bool.eq_false_iff.mpr fun contained => member (known.mp contained)
    simp [absent, List.removeAll, member, List.eraseDups_cons]

/-- Every key stands where it was written first. -/
theorem keys_insertAll (entries : List (String × α)) :
    ∀ {dict : Dict α} {names : List String}, dict.keys = names.eraseDups →
      (dict.insertAll entries).keys = (names ++ entries.map Prod.fst).eraseDups := by
  induction entries with
  | nil =>
      intro dict names given
      rw [List.map_nil, List.append_nil]
      exact given
  | cons entry entries ih =>
      intro dict names given
      have written := ih (keys_insert_eraseDups given entry.1 entry.2)
      rw [List.append_assoc] at written
      exact written

/-- Every key reads as what was written to it last. -/
theorem get?_insertAll (entries : List (String × α)) (key : String) :
    ∀ dict : Dict α, (dict.insertAll entries).get? key =
      ((entries.reverse.find? (·.1 == key)).map Prod.snd).or (dict.get? key) := by
  induction entries with
  | nil => exact fun dict => rfl
  | cons entry entries ih =>
      intro dict
      have later := ih (dict.insert entry.1 entry.2)
      rw [List.reverse_cons, List.find?_append, Option.map_or, Option.or_assoc]
      refine later.trans (congrArg (Option.or _) ?_)
      by_cases same : entry.1 = key
      · simp [same]
      · simp [same, get?_insert_of_ne (Ne.symm same)]

end Dict

/-! ## What the classes of an instance declare -/

namespace Heap

variable {heap after : Heap}

theorem ancestorsFrom_congr (same : after.classes = heap.classes) :
    ∀ (count : Nat) (cls : ClassRef), after.ancestorsFrom count cls = heap.ancestorsFrom count cls
  | 0, _ => rfl
  | count + 1, cls => by
      unfold ancestorsFrom
      rw [Heap.class, Heap.class, same]
      cases (heap.classes.getD cls.index default).superclass with
      | none => rfl
      | some parent => exact congrArg (cls :: ·) (ancestorsFrom_congr same count parent)

/-- The ancestors of a class depend on the classes of the heap alone. -/
theorem lineage_congr (same : after.classes = heap.classes) (cls : ClassRef) :
    after.lineage cls = heap.lineage cls :=
  ancestorsFrom_congr same _ cls

end Heap

namespace ClassDecl

/-- The fields that every instance has of its own. -/
def instanceFields (decl : ClassDecl) : List FieldDecl :=
  decl.fields.filter fun field => !field.isStatic

/-- The methods that are installed in every instance. -/
def instanceMethods (decl : ClassDecl) : List MethodDecl :=
  decl.methods.filter fun method => !method.traits.isStatic && method.isPlain

end ClassDecl

namespace Heap

/-- The instance fields of several classes, each with the class that declares it. -/
def fieldsOf (heap : Heap) (owners : List ClassRef) : List (ClassRef × FieldDecl) :=
  owners.flatMap fun owner => (heap.class owner).decl.instanceFields.map (owner, ·)

/-- The instance methods of several classes, each with the class that declares it. -/
def methodsOf (heap : Heap) (owners : List ClassRef) : List (ClassRef × MethodDecl) :=
  owners.flatMap fun owner => (heap.class owner).decl.instanceMethods.map (owner, ·)

/-- The value is a closure of the method's declaration in such a frame. -/
def IsMaterialized (heap : Heap) (owner : ClassRef) (method : MethodDecl) (receiver : Value)
    (value : Value) : Prop :=
  ∃ ref scope, value = .function ref ∧ heap.function ref = .ofDecl method.function scope ∧
    heap.frame scope = heap.receiverFrame owner receiver

end Heap

/-! ## The pass over the fields -/

/-- The evaluation of one field of a new instance. -/
structure FieldRun where
  owner : ClassRef
  field : FieldDecl
  /-- The scope that is made for it. -/
  scope : FrameRef
  before : Machine
  value : Value
  after : Machine

namespace FieldRun

def source (run : FieldRun) : ClassRef × FieldDecl :=
  (run.owner, run.field)

/-- What the field becomes. -/
def property (run : FieldRun) : Property :=
  { value := run.value, access := run.field.access, span := run.field.span }

def entry (run : FieldRun) : String × Property :=
  (run.field.name, run.property)

/-- The evaluation leaves the properties of the object as they are. -/
def Spares (run : FieldRun) (object : ObjectRef) : Prop :=
  (run.after.heap.object object).properties = (run.before.heap.object object).properties

end FieldRun

/-- Fields are evaluated one after another, each once and in a new scope of the class
that declares it, and are declared as soon as they have a value. -/
inductive Evaluator.Initializes (ev : Evaluator) (object : ObjectRef) :
    Machine → List FieldRun → Machine → Prop where
  | none (machine : Machine) : Initializes ev object machine [] machine
  | next {machine after last : Machine} {run : FieldRun} {runs : List FieldRun}
    (enters : Run.receiverScope run.owner (.object object) machine = .ok run.scope run.before)
    (evaluates : ev.evalOption run.scope run.field.value run.before = .ok run.value run.after)
    (declares : Run.insertProperty object run.field.name run.property run.after = .ok () after)
    (rest : Initializes ev object after runs last) :
    Initializes ev object machine (run :: runs) last

namespace Evaluator

variable {ev : Evaluator} {object : ObjectRef} {machine middle after : Machine}

theorem Initializes.append {runs more : List FieldRun}
    (first : ev.Initializes object machine runs middle)
    (second : ev.Initializes object middle more after) :
    ev.Initializes object machine (runs ++ more) after := by
  induction first with
  | none => exact second
  | next enters evaluates declares _ ih => exact .next enters evaluates declares (ih second)

theorem initializeField_eq (ev : Evaluator) (object : ObjectRef) (scope : FrameRef)
    (field : FieldDecl) :
    ev.initializeField object scope field = (do
      let value ← ev.evalOption scope field.value
      Run.insertProperty object field.name
        { value, access := field.access, span := field.span }) := by
  unfold initializeField evalOption
  cases field.value <;> rfl

/-- The fields of one class. -/
theorem initializes_of_fields {owner : ClassRef} :
    ∀ {fields : List FieldDecl} {machine : Machine},
      (fields.forM fun field => do
        ev.initializeField object (← Run.receiverScope owner (.object object)) field) machine =
          .ok () after →
      ∃ runs, ev.Initializes object machine runs after ∧
        runs.map FieldRun.source = fields.map (owner, ·)
  | [], machine, ended => by
      rcases Run.pure_eq_ok.mp ended with ⟨-, rfl⟩
      exact ⟨[], .none machine, rfl⟩
  | field :: fields, machine, ended => by
      rcases Run.bind_eq_ok.mp ended with ⟨_, middle, first, rest⟩
      rcases Run.bind_eq_ok.mp first with ⟨scope, entered, enters, initialized⟩
      rw [initializeField_eq] at initialized
      rcases Run.bind_eq_ok.mp initialized with ⟨value, evaluated, evaluates, declares⟩
      rcases initializes_of_fields rest with ⟨runs, initializes, sources⟩
      let run : FieldRun := ⟨owner, field, scope, entered, value, evaluated⟩
      have next : ev.Initializes object machine (run :: runs) after :=
        .next enters evaluates declares initializes
      exact ⟨run :: runs, next, congrArg ((owner, field) :: ·) sources⟩

/-- The fields of several classes, as they were declared before the first of them was
evaluated. -/
theorem initializes_of_owners (covers : Logic.sound.Covers (fun _ => True) ev ev) :
    ∀ {owners : List ClassRef} {machine : Machine}, machine.WellFormed →
      (∀ owner ∈ owners, machine.heap.Holds (.class owner)) →
      machine.heap.Holds (.object object) →
      owners.forM (ev.initializeFields object) machine = .ok () after →
      ∃ runs, ev.Initializes object machine runs after ∧
        runs.map FieldRun.source = machine.heap.fieldsOf owners ∧
        machine.heap.Grows after.heap
  | [], machine, _, _, _, ended => by
      rcases Run.pure_eq_ok.mp ended with ⟨-, rfl⟩
      exact ⟨[], .none machine, rfl, .refl _⟩
  | owner :: owners, machine, formed, held, objectHeld, ended => by
      rcases Run.bind_eq_ok.mp ended with ⟨_, middle, first, rest⟩
      have ownerHeld := held owner List.mem_cons_self
      have relates : Logic.sound.Relates machine (ev.initializeFields object owner)
          (ev.initializeFields object owner) :=
        covers.initializeFields (fun _ => ownerHeld) trivial (fun _ => objectHeld)
          fun _ _ => trivial
      have concludes := relates machine ⟨formed, .refl machine⟩
      rw [first] at concludes
      have reached := concludes.1.2
      have grown := reached.grows formed
      rcases initializes_of_fields first with ⟨runs, initializes, sources⟩
      have further : ∀ other ∈ owners, machine.heap.Holds (.class other) :=
        fun other member => held other (List.mem_cons_of_mem owner member)
      rcases initializes_of_owners covers (reached.wellFormed formed)
        (fun other member => (further other member).mono grown) (objectHeld.mono grown) rest with
        ⟨more, continues, others, later⟩
      refine ⟨runs ++ more, initializes.append continues, ?_, grown.trans later⟩
      have declared : middle.heap.fieldsOf owners = machine.heap.fieldsOf owners := by
        refine List.flatMap_congr fun other member => ?_
        rw [grown.declared other (further other member)]
      rw [List.map_append, sources, others, declared]
      rfl

end Evaluator

/-! ## The table of the instance -/

namespace Heap

/-- An object that was never allocated reads as empty, so one with properties was. -/
theorem allocated_of_entries {heap : Heap} {ref : ObjectRef}
    (inhabited : (heap.object ref).properties.entries ≠ []) : ref.index < heap.objects.size := by
  rcases Nat.lt_or_ge ref.index heap.objects.size with allocated | outside
  · exact allocated
  · have empty : heap.object ref = {} := by
      simp [Heap.object, Array.getD_eq_getD_getElem?, outside]
    exact absurd (by rw [empty]) inhabited

theorem entries_insert_ne_nil (properties : Dict Property) (key : String) (property : Property) :
    (properties.insert key property).entries ≠ [] :=
  List.ne_nil_of_mem (Dict.mem_of_get? (Dict.get?_insert_self properties key property))

end Heap

/-! ## The pass over the methods -/

namespace Heap

variable {heap middle after : Heap}

/-- Functions and scopes were only added, and the classes are the same. -/
structure AddsCode (heap after : Heap) : Prop where
  functions_le : heap.functions.size ≤ after.functions.size
  functions : ∀ ref : FunctionRef, ref.index < heap.functions.size →
    after.function ref = heap.function ref
  frames_le : heap.frames.size ≤ after.frames.size
  frames : ∀ ref : FrameRef, ref.index < heap.frames.size → after.frame ref = heap.frame ref
  classes : after.classes = heap.classes

theorem AddsCode.refl (heap : Heap) : heap.AddsCode heap :=
  ⟨Nat.le_refl _, fun _ _ => rfl, Nat.le_refl _, fun _ _ => rfl, rfl⟩

theorem AddsCode.trans (first : heap.AddsCode middle) (second : middle.AddsCode after) :
    heap.AddsCode after where
  functions_le := Nat.le_trans first.functions_le second.functions_le
  functions ref allocated :=
    (second.functions ref (Nat.lt_of_lt_of_le allocated first.functions_le)).trans
      (first.functions ref allocated)
  frames_le := Nat.le_trans first.frames_le second.frames_le
  frames ref allocated :=
    (second.frames ref (Nat.lt_of_lt_of_le allocated first.frames_le)).trans
      (first.frames ref allocated)
  classes := second.classes.trans first.classes

theorem AddsCode.class_eq (added : heap.AddsCode after) (ref : ClassRef) :
    after.class ref = heap.class ref := by
  rw [Heap.class, added.classes]
  rfl

/-- A materialized method stays one: its function and its scope are in the heap. -/
theorem IsMaterialized.mono {owner : ClassRef} {method : MethodDecl} {receiver value : Value}
    (materialized : heap.IsMaterialized owner method receiver value)
    (added : heap.AddsCode after) : after.IsMaterialized owner method receiver value := by
  obtain ⟨ref, scope, isFunction, body, frame⟩ := materialized
  have functionAllocated : ref.index < heap.functions.size := by
    by_contra outside
    simp [Heap.function, Array.getD_eq_getD_getElem?, Nat.le_of_not_lt outside, default,
      Function.ofBuiltin, Function.ofDecl] at body
  have frameAllocated : scope.index < heap.frames.size := by
    by_contra outside
    simp [Heap.frame, Array.getD_eq_getD_getElem?, Nat.le_of_not_lt outside, receiverFrame] at frame
  refine ⟨ref, scope, isFunction, (added.functions ref functionAllocated).trans body, ?_⟩
  rw [added.frames scope frameAllocated, frame, receiverFrame, receiverFrame, added.class_eq]

/-- What a method becomes in the table of an instance. -/
structure Installs (heap : Heap) (object : ObjectRef) (declared : ClassRef × MethodDecl)
    (entry : String × Property) : Prop where
  name : entry.1 = declared.2.name
  access : entry.2.access = declared.2.access
  span : entry.2.span = declared.2.span
  code : heap.IsMaterialized declared.1 declared.2 (.object object) entry.2.value

theorem Installs.mono {object : ObjectRef} {declared : ClassRef × MethodDecl}
    {entry : String × Property} (installs : heap.Installs object declared entry)
    (added : heap.AddsCode after) : after.Installs object declared entry :=
  { installs with code := installs.code.mono added }

end Heap

namespace Run

/-- The run ends with a result. -/
def succeeds {α : Type} (run : Run α) (machine : Machine) : Bool :=
  match run machine with
  | .ok .. => true
  | .error .. => false

theorem ok_of_succeeds {α : Type} {run : Run α} {machine : Machine}
    (succeeds : run.succeeds machine = true) : ∃ a after, run machine = .ok a after := by
  unfold Run.succeeds at succeeds
  cases ended : run machine with
  | ok a after => exact ⟨a, after, rfl⟩
  | error halt after =>
      rw [ended] at succeeds
      cases succeeds

variable {object : ObjectRef} {machine after : Machine}

/-- The code of a class gets a scope of its own. -/
theorem receiverScope_ok {owner : ClassRef} {receiver : Value} {scope : FrameRef}
    (ended : Run.receiverScope owner receiver machine = .ok scope after) :
    after.heap.frame scope = after.heap.receiverFrame owner receiver ∧
      machine.heap.AddsCode after.heap ∧ after.heap.objects = machine.heap.objects := by
  rw [receiverScope_apply] at ended
  cases ended
  refine ⟨Heap.frame_allocFrame _ _, ⟨Nat.le_refl _, fun _ _ => rfl, ?_, ?_, rfl⟩, rfl⟩
  · simp [Heap.allocFrame]
  · exact fun ref older => Heap.frame_of_frames_push rfl older

/-- A method becomes a closure in a scope of its class. -/
theorem materialize_ok {owner : ClassRef} {method : MethodDecl} {receiver value : Value}
    (ended : Run.materialize owner method receiver machine = .ok value after) :
    after.heap.IsMaterialized owner method receiver value ∧ machine.heap.AddsCode after.heap ∧
      after.heap.objects = machine.heap.objects := by
  rcases Run.bind_eq_ok.mp ended with ⟨scope, middle, enters, closes⟩
  rcases receiverScope_ok enters with ⟨frame, added, objects⟩
  cases closes
  have pushed : middle.heap.AddsCode
      (middle.heap.allocFunction (.ofDecl method.function scope)).2 := by
    refine ⟨by simp [Heap.allocFunction], fun ref older => ?_, Nat.le_refl _, fun _ _ => rfl, rfl⟩
    simp [Heap.function, Heap.allocFunction, Array.getElem?_push, Nat.ne_of_lt older]
  refine ⟨⟨⟨middle.heap.functions.size⟩, scope, rfl, ?_, frame⟩, added.trans pushed, objects⟩
  simp [Heap.function]

/-- Installing a method writes one entry to the table of the instance. -/
theorem installMethod_ok {owner : ClassRef} {method : MethodDecl}
    (inhabited : (machine.heap.object object).properties.entries ≠ [])
    (ended : Run.installMethod owner object method machine = .ok () after) :
    ∃ entry, after.heap.Installs object (owner, method) entry ∧
      (after.heap.object object).properties =
        (machine.heap.object object).properties.insert entry.1 entry.2 ∧
      machine.heap.AddsCode after.heap := by
  rcases Run.bind_eq_ok.mp ended with ⟨value, middle, materializes, inserts⟩
  rcases materialize_ok materializes with ⟨code, added, objects⟩
  cases inserts
  have same : middle.heap.object object = machine.heap.object object := by
    rw [Heap.object, objects]
    rfl
  have allocated := Heap.allocated_of_entries (same ▸ inhabited)
  refine ⟨(method.name, { value, access := method.access, span := method.span }),
    ⟨rfl, rfl, rfl, code⟩, ?_, added.trans ⟨Nat.le_refl _, fun _ _ => rfl, Nat.le_refl _,
      fun _ _ => rfl, rfl⟩⟩
  rw [Heap.object_modifyObject_self _ _ _ allocated, Object.insert, same]

/-- Methods of one class. -/
theorem installMethod_forM_ok {owner : ClassRef} :
    ∀ {methods : List MethodDecl} {machine : Machine},
      (machine.heap.object object).properties.entries ≠ [] →
      methods.forM (Run.installMethod owner object) machine = .ok () after →
      ∃ entries, List.Forall₂ (after.heap.Installs object) (methods.map (owner, ·)) entries ∧
        (after.heap.object object).properties =
          (machine.heap.object object).properties.insertAll entries ∧
        (after.heap.object object).properties.entries ≠ [] ∧ machine.heap.AddsCode after.heap
  | [], machine, inhabited, ended => by
      rcases Run.pure_eq_ok.mp ended with ⟨-, rfl⟩
      exact ⟨[], .nil, rfl, inhabited, .refl _⟩
  | method :: methods, machine, inhabited, ended => by
      rcases Run.bind_eq_ok.mp ended with ⟨_, middle, first, rest⟩
      rcases installMethod_ok inhabited first with ⟨entry, installs, written, added⟩
      have still : (middle.heap.object object).properties.entries ≠ [] := by
        rw [written]
        exact Heap.entries_insert_ne_nil _ entry.1 entry.2
      rcases installMethod_forM_ok still rest with ⟨entries, install, properties, last, further⟩
      refine ⟨entry :: entries, .cons (installs.mono further) install, ?_, last,
        added.trans further⟩
      rw [properties, written]
      rfl

/-- Methods of several classes. -/
theorem installMethods_ok :
    ∀ {owners : List ClassRef} {machine : Machine},
      (machine.heap.object object).properties.entries ≠ [] →
      owners.forM (Evaluator.installMethods object) machine = .ok () after →
      ∃ entries,
        List.Forall₂ (after.heap.Installs object) (machine.heap.methodsOf owners) entries ∧
        (after.heap.object object).properties =
          (machine.heap.object object).properties.insertAll entries ∧
        machine.heap.AddsCode after.heap
  | [], machine, _, ended => by
      rcases Run.pure_eq_ok.mp ended with ⟨-, rfl⟩
      exact ⟨[], .nil, rfl, .refl _⟩
  | owner :: owners, machine, inhabited, ended => by
      rcases Run.bind_eq_ok.mp ended with ⟨_, middle, first, rest⟩
      rcases installMethod_forM_ok inhabited first with ⟨entries, install, written, still, added⟩
      rcases installMethods_ok still rest with ⟨more, others, further, later⟩
      have declared : middle.heap.methodsOf owners = machine.heap.methodsOf owners :=
        List.flatMap_congr fun other _ => by rw [added.class_eq]
      refine ⟨entries ++ more, ?_, ?_, added.trans later⟩
      · rw [declared] at others
        exact List.rel_append (install.imp fun _ _ installs => installs.mono later) others
      · rw [further, written, Dict.insertAll_append]

end Run

/-! ## Both passes -/

namespace Evaluator

variable {ev : Evaluator} {object : ObjectRef}

/-- Where the initial values leave the table alone, it gets one entry for each field. -/
theorem Initializes.properties {machine after : Machine} {runs : List FieldRun}
    (initializes : ev.Initializes object machine runs after)
    (spared : ∀ run ∈ runs, run.Spares object)
    (inhabited : (machine.heap.object object).properties.entries ≠ []) :
    (after.heap.object object).properties =
        (machine.heap.object object).properties.insertAll (runs.map FieldRun.entry) ∧
      (after.heap.object object).properties.entries ≠ [] := by
  induction initializes with
  | none => exact ⟨rfl, inhabited⟩
  | @next machine after last run runs enters evaluates declares rest ih =>
      have entered := (Run.receiverScope_ok enters).2.2
      cases declares
      have same : (run.after.heap.object object).properties =
          (machine.heap.object object).properties := by
        refine (spared run List.mem_cons_self).trans ?_
        rw [Heap.object, entered]
        rfl
      have allocated : object.index < run.after.heap.objects.size :=
        Heap.allocated_of_entries (same ▸ inhabited)
      have written : (run.after.heap.modifyObject object fun object =>
            object.insert run.field.name run.property).object object =
          (run.after.heap.object object).insert run.field.name run.property :=
        Heap.object_modifyObject_self _ _ _ allocated
      have later := ih (fun other member => spared other (List.mem_cons_of_mem run member))
        (by rw [written]; exact Heap.entries_insert_ne_nil _ _ _)
      refine ⟨later.1.trans ?_, later.2⟩
      rw [written, Object.insert, same]
      rfl

end Evaluator

/-- Lists that correspond find corresponding members. -/
theorem find?_forall₂ {α β : Type} {related : α → β → Prop} {p : α → Bool} {q : β → Bool}
    (agree : ∀ a b, related a b → q b = p a) {as : List α} {bs : List β}
    (paired : List.Forall₂ related as bs) :
    (as.find? p = none ∧ bs.find? q = none) ∨
      ∃ a b, as.find? p = some a ∧ bs.find? q = some b ∧ related a b := by
  induction paired with
  | nil => exact .inl ⟨rfl, rfl⟩
  | @cons a b as bs head tail ih =>
      cases here : p a with
      | true =>
          exact .inr ⟨a, b, List.find?_cons_of_pos here,
            List.find?_cons_of_pos ((agree a b head).trans here), head⟩
      | false =>
          have passed : q b = false := (agree a b head).trans here
          rw [List.find?_cons_of_neg (by simp [here]), List.find?_cons_of_neg (by simp [passed])]
          exact ih

/-- The table of a new instance: the order of its keys, and for each key the last method
of that name, or else the last field, or else the link to the class. -/
structure Heap.IsFreshInstance (heap : Heap) (object : ObjectRef) (link : Property)
    (runs : List FieldRun) (methods : List (ClassRef × MethodDecl)) : Prop where
  keys : (heap.object object).properties.keys =
    (classLinkName :: (runs.map (·.field.name) ++ methods.map (·.2.name))).eraseDups
  method : ∀ name declared, methods.reverse.find? (·.2.name == name) = some declared →
    ∃ property, (heap.object object).properties.get? name = some property ∧
      heap.Installs object declared (name, property)
  field : ∀ name run, (∀ declared ∈ methods, declared.2.name ≠ name) →
    runs.reverse.find? (·.field.name == name) = some run →
    (heap.object object).properties.get? name = some run.property
  rest : ∀ name, (∀ declared ∈ methods, declared.2.name ≠ name) →
    (∀ run ∈ runs, run.field.name ≠ name) →
    (heap.object object).properties.get? name = if name = classLinkName then some link else none

namespace Heap

/-- Two groups of entries on top of the link make the table of a new instance. -/
theorem isFreshInstance_of_entries {heap : Heap} {object : ObjectRef} {link : Property}
    {runs : List FieldRun} {methods : List (ClassRef × MethodDecl)}
    {installed : List (String × Property)}
    (installs : List.Forall₂ (heap.Installs object) methods installed)
    (table : (heap.object object).properties =
      ((Dict.empty.insert classLinkName link).insertAll (runs.map FieldRun.entry)).insertAll
        installed) :
    heap.IsFreshInstance object link runs methods := by
  have names : installed.map Prod.fst = methods.map (·.2.name) := by
    clear table
    induction installs with
    | nil => rfl
    | cons head _ ih => rw [List.map_cons, List.map_cons, head.name, ih]
  have reads : ∀ name, (heap.object object).properties.get? name =
      ((installed.reverse.find? (·.1 == name)).map Prod.snd).or
        (((runs.reverse.find? (·.field.name == name)).map FieldRun.property).or
          (if name = classLinkName then some link else none)) := by
    intro name
    rw [table, Dict.get?_insertAll, Dict.get?_insertAll]
    congr 2
    · rw [← List.map_reverse, List.find?_map, Option.map_map]
      rfl
    · by_cases isLink : name = classLinkName
      · simp [isLink]
      · simp only [Dict.get?_insert_of_ne isLink, isLink, if_false]
        rfl
  have found : ∀ name, (methods.reverse.find? (·.2.name == name) = none ∧
        installed.reverse.find? (·.1 == name) = none) ∨
      ∃ declared entry, methods.reverse.find? (·.2.name == name) = some declared ∧
        installed.reverse.find? (·.1 == name) = some entry ∧ heap.Installs object declared entry :=
    fun name => find?_forall₂ (fun declared entry installs => by rw [installs.name])
      (List.forall₂_reverse_iff.mpr installs)
  have missing : ∀ name, (∀ declared ∈ methods, declared.2.name ≠ name) →
      installed.reverse.find? (·.1 == name) = none := by
    intro name none
    rw [List.find?_eq_none]
    intro entry member same
    have named : entry.1 ∈ methods.map (·.2.name) :=
      names ▸ List.mem_map_of_mem (List.mem_reverse.mp member)
    rcases List.mem_map.mp named with ⟨declared, inMethods, isName⟩
    exact none declared inMethods (isName.trans (by simpa using same))
  constructor
  · have linked : (Dict.empty.insert classLinkName link).keys = [classLinkName].eraseDups := by
      rfl
    rw [table, Dict.keys_insertAll _ (Dict.keys_insertAll _ linked), names, List.map_map,
      List.append_assoc]
    rfl
  · intro name declared last
    rcases found name with ⟨none, -⟩ | ⟨other, entry, isLast, inTable, installs⟩
    · rw [none] at last
      cases last
    · cases isLast.symm.trans last
      refine ⟨entry.2, ?_, { installs with name := ?_ }⟩
      · rw [reads, inTable]
        rfl
      · exact (installs.name.symm.trans (by simpa using List.find?_some inTable)).symm
  · intro name run none last
    rw [reads, missing name none, last]
    rfl
  · intro name none noField
    have silent : runs.reverse.find? (·.field.name == name) = Option.none := by
      rw [List.find?_eq_none]
      intro run member same
      exact noField run (List.mem_reverse.mp member) (by simpa using same)
    rw [reads, missing name none, silent]
    rfl

end Heap

/-! ## Making an instance -/

/-- Two walks from one start are the same. -/
theorem Walk.unique {ι : Type} {next : ι → Option ι} {here : ι} {walk other : List ι}
    (walked : Walk next here walk) (again : Walk next here other) : walk = other := by
  induction walked generalizing other with
  | last ends =>
      cases again with
      | last => rfl
      | step leads =>
          rw [ends] at leads
          cases leads
  | step leads _ ih =>
      cases again with
      | last ends =>
          rw [ends] at leads
          cases leads
      | step leadsToo further =>
          cases leads.symm.trans leadsToo
          rw [ih further]

namespace Evaluator

/-- How an instance of a class was made: the fields of all its classes were evaluated
from the base class down, each once and in order, and then their methods were
installed.  If the initial values left the properties of the instance alone, then these
are what the fields and the methods make of them. -/
structure Makes (ev : Evaluator) (cls : ClassRef) (chain : List ClassRef) (machine : Machine)
    (object : ObjectRef) (runs : List FieldRun) (after : Machine) : Prop where
  initializes : ∃ start middle, start.heap = Machine.instanceHeap machine.heap cls
      (machine.heap.class cls).decl.span ∧
    ev.Initializes object start runs middle ∧
    chain.reverse.forM (installMethods object) middle = .ok () after
  fields : runs.map FieldRun.source = machine.heap.fieldsOf chain.reverse
  fresh : (∀ run ∈ runs, run.Spares object) → after.heap.IsFreshInstance object
    (classLink cls (machine.heap.class cls).decl.span) runs (machine.heap.methodsOf chain.reverse)

variable {ev : Evaluator} {cls : ClassRef} {machine after : Machine} {object : ObjectRef}

theorem instantiate_ok (covers : Logic.sound.Covers (fun _ => True) ev ev)
    (formed : machine.WellFormed)
    (held : machine.heap.Holds (.class cls))
    (made : ev.instantiate cls machine = .ok object after) :
    ∃ runs, ev.Makes cls (machine.heap.lineage cls) machine object runs after := by
  let span := (machine.heap.class cls).decl.span
  let start : Machine :=
    { machine with
      heap := Machine.instanceHeap machine.heap cls span
      journal := machine.journal.push (.constructing (machine.heap.class cls).name) }
  have step : machine.Step [.made (machine.heap.allocObject {}).1 cls] start := .make held
  obtain ⟨grown, startFormed, -⟩ := step.keeps formed
  -- The lineage is read after the instance was begun, which changes no class.
  have sameClasses : start.heap.classes = machine.heap.classes := rfl
  have lineage : start.heap.lineage cls = machine.heap.lineage cls :=
    Heap.lineage_congr sameClasses cls
  have begun : (do
      (start.heap.lineage cls).reverse.forM (ev.initializeFields (machine.heap.allocObject {}).1)
      (start.heap.lineage cls).reverse.forM (installMethods (machine.heap.allocObject {}).1)
      pure (machine.heap.allocObject {}).1 : Run ObjectRef) start = .ok object after := made
  rw [lineage] at begun
  rcases Run.bind_eq_ok.mp begun with ⟨_, middle, fields, methodsAndResult⟩
  rcases Run.bind_eq_ok.mp methodsAndResult with ⟨_, last, methods, result⟩
  rcases Run.pure_eq_ok.mp result with ⟨rfl, rfl⟩
  have owners : ∀ owner ∈ (machine.heap.lineage cls).reverse, start.heap.Holds (.class owner) :=
    fun owner member =>
      (formed.heap.mem_ancestorsFrom held (List.mem_reverse.mp member)).mono grown
  have objectHeld : start.heap.Holds (.object (machine.heap.allocObject {}).1) := by
    simp [start, Machine.instanceHeap, Heap.modifyObject, Heap.Holds, Heap.allocObject]
  rcases initializes_of_owners covers startFormed owners objectHeld fields with
    ⟨runs, initializes, sources, further⟩
  have linked : (start.heap.object (machine.heap.allocObject {}).1).properties =
      Dict.empty.insert classLinkName (classLink cls span) := by
    have written := Heap.object_modifyObject_self (machine.heap.allocObject {}).2
      (machine.heap.allocObject {}).1
      (fun object => object.insert classLinkName (classLink cls span))
      (by simp [Heap.allocObject])
    rw [Heap.object_allocObject] at written
    exact congrArg Object.properties written
  have inhabited : (start.heap.object (machine.heap.allocObject {}).1).properties.entries ≠ [] := by
    rw [linked]
    exact List.cons_ne_nil _ _
  have methodsDeclared : middle.heap.methodsOf (machine.heap.lineage cls).reverse =
      machine.heap.methodsOf (machine.heap.lineage cls).reverse :=
    List.flatMap_congr fun owner member => by
      rw [further.declared owner (owners owner member)]
      rfl
  refine ⟨runs, ⟨start, middle, rfl, initializes, methods⟩, sources, fun spared => ?_⟩
  obtain ⟨table, still⟩ := initializes.properties spared inhabited
  rcases Run.installMethods_ok still methods with ⟨installed, installs, written, -⟩
  rw [methodsDeclared] at installs
  refine Heap.isFreshInstance_of_entries installs ?_
  rw [written, table, linked]

/-- Where no field has an initial value, nothing is evaluated. -/
theorem Initializes.spares {start : Machine} {runs : List FieldRun}
    (initializes : ev.Initializes object start runs after)
    (bare : ∀ source ∈ runs.map FieldRun.source, source.2.value = Option.none) :
    ∀ run ∈ runs, run.Spares object := by
  induction initializes with
  | none => exact nofun
  | @next _ _ _ run runs _ evaluates _ _ ih =>
      obtain ⟨here, later⟩ := List.forall_mem_cons.mp bare
      refine List.forall_mem_cons.mpr ⟨?_, ih later⟩
      have unvalued : run.field.value = Option.none := here
      rw [unvalued] at evaluates
      rw [FieldRun.Spares, (Run.pure_eq_ok.mp evaluates).2]

/-- A method with nothing in it. -/
def emptyMethod (name : String) (traits : MethodTraits) : MethodDecl :=
  { name, function := ⟨name, [], [], {}⟩, traits }

end Evaluator

end Hati
