import Hati.Proofs.DistinctKeys
import Hati.Proofs.Logic.Access

namespace Hati

/-!
# Built-in functions

Built-in functions change lists, freeze objects and start timers.  They declare no names,
and the only code that they run is what they call back.  What they store are their
arguments, the elements of lists and the answers of what they call back.  An object that is
made from pairs, for a JSON text or for the outermost scope, is linked to no class, because
no value among the pairs is one.
-/

/-! ## Objects made from pairs -/

namespace Object

private theorem mem_foldl_define {entry : String × Property} :
    ∀ {pairs : List (String × Value)} {object : Object},
      entry ∈ (pairs.foldl (fun object pair => object.define pair.1 pair.2)
        object).properties.entries →
      entry ∈ object.properties.entries ∨ ∃ pair ∈ pairs, entry.2.value = pair.2
  | [], _, member => .inl member
  | pair :: pairs, object, member => by
      have rest := @mem_foldl_define entry pairs (object.define pair.1 pair.2) member
      rcases rest with before | ⟨other, inPairs, same⟩
      · rcases Dict.mem_entries_insert before with rfl | old
        · exact .inr ⟨pair, List.mem_cons_self, rfl⟩
        · exact .inl old
      · exact .inr ⟨other, List.mem_cons_of_mem pair inPairs, same⟩

/-- The values of an object made from pairs are those of the pairs. -/
theorem mem_entries_ofPairs {pairs : List (String × Value)} {entry : String × Property}
    (member : entry ∈ (ofPairs pairs).properties.entries) :
    ∃ pair ∈ pairs, entry.2.value = pair.2 :=
  (mem_foldl_define member).resolve_left List.not_mem_nil

theorem isUnlinked_ofPairs {pairs : List (String × Value)}
    (plain : ∀ pair ∈ pairs, pair.2.type ≠ .class) : (ofPairs pairs).IsUnlinked := by
  intro cls stored
  rcases Option.map_eq_some_iff.mp stored with ⟨property, found, value⟩
  rcases mem_entries_ofPairs (Dict.mem_of_get? found) with ⟨pair, member, same⟩
  exact plain pair member (by rw [← same, value]; rfl)

end Object

namespace Logic

variable {logic : Logic} {world machine : Machine} {span : Span}

/-! ## Values from JSON trees -/

/-- The values were built by moves, and none of them is a class. -/
structure Builds (logic : Logic) (machine : Machine) (values : List Value) (heap : Heap) :
    Prop where
  leads : logic.leads machine { machine with heap }
  held : logic.HeldItems { machine with heap } values
  plain : ∀ value ∈ values, value.type ≠ .class

namespace Builds

variable {heap : Heap} {values : List Value}

theorem nil (valid : logic.leads machine machine) : logic.Builds machine [] machine.heap :=
  ⟨valid, nofun, nofun⟩

theorem copied (valid : logic.leads machine machine) {value : Value} (copied : value.IsCopied) :
    logic.Builds machine [value] machine.heap := by
  refine ⟨valid, fun _ member => ?_, fun _ member => ?_⟩
  · exact List.mem_singleton.mp member ▸ held_of_isCopied copied
  · rw [List.mem_singleton.mp member]
    cases value with
    | «class» cls => exact copied.elim
    | _ => exact nofun

/-- One more allocation, of a cell that the values so far may stand in. -/
theorem alloc (built : logic.Builds machine values heap) {value : Value} {after : Heap}
    (edit : Edit logic.toTerms heap after) (held : after.Holds value)
    (plain : value.type ≠ .class) : logic.Builds machine [value] after := by
  refine ⟨logic.trans built.leads ?_, fun _ member => ?_, fun _ member => ?_⟩
  · exact logic.moves (logic.self built.leads) (.edit edit)
  · exact List.mem_singleton.mp member ▸ fun _ => held
  · exact List.mem_singleton.mp member ▸ plain

theorem cons {value : Value} (built : logic.Builds machine [value] heap) {after : Heap}
    (rest : logic.Builds { machine with heap } values after) :
    logic.Builds machine (value :: values) after := by
  refine ⟨logic.trans built.leads rest.leads, fun other member => ?_, fun other member => ?_⟩
  · rcases List.mem_cons.mp member with rfl | inRest
    · have held := built.held other List.mem_cons_self
      exact held.later rest.leads
    · exact rest.held other inRest
  · rcases List.mem_cons.mp member with rfl | inRest
    · exact built.plain other List.mem_cons_self
    · exact rest.plain other inRest

mutual

theorem ofJson {machine : Machine} (valid : logic.leads machine machine) : ∀ json : Json,
    logic.Builds machine [(machine.heap.ofJson json).1] (machine.heap.ofJson json).2
  | .null | .bool _ | .int _ | .float _ | .text _ => copied valid trivial
  | .list items => by
      have built := ofJsonItems valid items
      exact built.alloc (.newList _ fun tracks item member => built.held item member tracks)
        (Heap.holds_allocList _ _) nofun
  | .object fields => by
      have built := ofJsonFields valid fields
      have each {holds : Value → Prop} (all : ∀ value ∈
          (machine.heap.ofJsonFields fields).1.map Prod.snd, holds value) :
          ∀ pair ∈ (machine.heap.ofJsonFields fields).1, holds pair.2 :=
        fun pair member => all pair.2 (List.mem_map_of_mem member)
      refine built.alloc (.newObject _ (Object.nodup_keys_ofPairs _) ?_ ?_)
        (Heap.holds_allocObject _ _) nofun
      · intro tracks entry member
        rcases Object.mem_entries_ofPairs member with ⟨pair, inPairs, same⟩
        exact same ▸ each built.held pair inPairs tracks
      · exact fun _ => Object.isUnlinked_ofPairs (each built.plain)

theorem ofJsonItems {machine : Machine} (valid : logic.leads machine machine) :
    ∀ items : List Json,
      logic.Builds machine (machine.heap.ofJsonItems items).1 (machine.heap.ofJsonItems items).2
  | [] => nil valid
  | item :: items => by
      have first := ofJson valid item
      exact first.cons (ofJsonItems (logic.self first.leads) items)

theorem ofJsonFields {machine : Machine} (valid : logic.leads machine machine) :
    ∀ fields : List (String × Json),
      logic.Builds machine ((machine.heap.ofJsonFields fields).1.map Prod.snd)
        (machine.heap.ofJsonFields fields).2
  | [] => nil valid
  | (_, field) :: fields => by
      have first := ofJson valid field
      exact first.cons (ofJsonFields (logic.self first.leads) fields)

end

end Builds

/-! ## Parts of a list -/

namespace Terms.HeldItems

variable {items more : List Value}

theorem nil : logic.HeldItems world [] :=
  nofun

theorem cons {item : Value} (head : logic.Held world item) (tail : logic.HeldItems world items) :
    logic.HeldItems world (item :: items) := by
  intro other member
  rcases List.mem_cons.mp member with rfl | inTail
  · exact head
  · exact tail other inTail

theorem append (held : logic.HeldItems world items) (others : logic.HeldItems world more) :
    logic.HeldItems world (items ++ more) :=
  fun item member => (List.mem_append.mp member).elim (held item) (others item)

theorem subset (held : logic.HeldItems world items) (within : ∀ item ∈ more, item ∈ items) :
    logic.HeldItems world more :=
  fun item member => held item (within item member)

theorem headD (held : logic.HeldItems world items) : logic.Held world (items.headD .null) := by
  cases items with
  | nil => exact held_of_isCopied trivial
  | cons item rest => exact held item List.mem_cons_self

/-- The elements that come with something else each. -/
theorem map {ι : Type} {f : ι → Value} {source : List ι}
    (held : ∀ a ∈ source, logic.Held world (f a)) : logic.HeldItems world (source.map f) := by
  intro item member
  rcases List.mem_map.mp member with ⟨a, inSource, rfl⟩
  exact held a inSource

end Terms.HeldItems

/-- The callback of a task is held, and so is all that it is given. -/
def HeldTask (logic : Logic) (machine : Machine) (task : Task Value) : Prop :=
  logic.Held machine task.callback ∧ logic.HeldItems machine task.arguments

theorem HeldTask.later {task : Task Value} (held : logic.HeldTask world task) {after : Machine}
    (onward : logic.leads world after) : logic.HeldTask after task :=
  ⟨held.1.later onward, held.2.later onward⟩

/-- A callback is kept next to those that wait already. -/
theorem HeldTask.append (valid : logic.leads machine machine) {id : Nat} {task : Task Value}
    (held : logic.HeldTask machine task) (tracks : logic.tracks) :
    Machine.HoldsTasks machine.heap (machine.scheduler.tasks ++ [(id, task)]) := by
  intro entry member
  rcases List.mem_append.mp member with waiting | new
  · exact (logic.formed tracks valid).tasks entry waiting
  · cases List.mem_singleton.mp new
    exact ⟨held.1 tracks, fun item member => held.2 item member tracks⟩

namespace Relates

/-! ## Sorting -/

theorem insertM {less other : Value → Value → Run Bool}
    (each : ∀ a b, logic.Held world a → logic.Held world b →
      logic.Relates world (less a b) (other a b)) {item : Value} (held : logic.Held world item) :
    ∀ sorted : List Value, logic.HeldItems world sorted →
      logic.Relates world (Elements.insertM less item sorted) (Elements.insertM other item sorted)
        logic.HeldItems
  | [], _ => pure fun _ onward => .cons (held.later onward) .nil
  | first :: rest, kept => by
      have firstHeld := kept first List.mem_cons_self
      refine (each item first held firstHeld).andThen fun answer => ?_
      cases answer with
      | true =>
          have others := insertM each held rest (kept.subset fun _ => List.mem_cons_of_mem first)
          refine others.bind fun _ inserted onward inList => pure fun _ further => ?_
          exact .cons (firstHeld.later (logic.trans onward further)) (inList.later further)
      | false => exact pure fun _ onward => .cons (held.later onward) (kept.later onward)

theorem sortedByM {less other : Value → Value → Run Bool} {items : List Value}
    (each : ∀ machine, logic.leads world machine → ∀ a b, logic.Held machine a →
      logic.Held machine b → logic.Relates machine (less a b) (other a b))
    (held : logic.HeldItems world items) :
    logic.Relates world (Elements.sortedByM less items) (Elements.sortedByM other items)
      logic.HeldItems := by
  have lasting : logic.Lasting logic.HeldItems := fun _ _ _ onward held => held.later onward
  have sorted := foldlM lasting Terms.HeldItems.nil fun item member machine sorted onward kept =>
    insertM (each machine onward) ((held item member).later onward) sorted kept
  refine sorted.bind fun _ _ _ held => pure fun _ onward => ?_
  exact (held.later onward).subset fun _ => List.mem_reverse.mp

/-! ## Steps that call nothing back -/

/-- The elements of a list and their positions. -/
theorem elements {ref : ListRef} :
    logic.Relates world (Evaluator.elements ref) (Evaluator.elements ref)
      fun machine elements => ∀ element ∈ elements, logic.Held machine element.1 := by
  refine items.bind fun _ items _ held => pure fun _ onward element member => ?_
  exact (held element.1 (List.mem_zipIdx' member |>.2 ▸ List.getElem_mem _)).later onward

theorem cancelTimer {id : Nat} :
    logic.Relates world (Run.cancelTimer id) (Run.cancelTimer id) logic.Held := by
  refine (schedules fun machine onward tracks entry member => ?_).andThen fun wasLive => ?_
  · have waiting := (logic.formed tracks (logic.self onward)).tasks
    exact waiting entry (List.mem_filter.mp member).1
  · cases wasLive with
    | true => exact andThen note fun _ => value (held_of_isCopied trivial)
    | false => exact value (held_of_isCopied trivial)

/-- A refusal of the system is placed where a built-in function is called. -/
theorem startTimer {request : TimerRequest} {repeats : Bool} (here : logic.place span)
    (held : logic.HeldTask world request.task) :
    logic.Relates world (Run.orAt span (Run.startTimer request repeats))
      (Run.orAt span (Run.startTimer request repeats)) logic.Held := by
  unfold Run.startTimer
  rw [Run.orAt_bind]
  refine (orAt here (schedules fun machine onward tracks => ?_)).andThen fun started => ?_
  · have valid := logic.self onward
    unfold Scheduler.start
    split
    · exact (held.later onward).append valid tracks
    · exact (logic.formed tracks valid).tasks
  · cases started with
    | ok id => exact orAt here (andThen note fun _ => value (held_of_isCopied trivial))
    | error reason =>
        dsimp only
        rw [Run.orAt_fail_builtin]
        exact fail here rfl

section Placed

variable {args : List Value} (here : logic.place span)
include here

theorem stringify :
    logic.Relates world (Run.stringify args span) (Run.stringify args span) logic.Held := by
  refine isTrue.andThen fun _ => readThen fun machine _ => ?_
  refine (lift here (Converts.toJson machine.heap (args.headD .null))).andThen fun _ => ?_
  exact value (held_of_isCopied trivial)

theorem parseJson :
    logic.Relates world (Run.parseJson args span) (Run.parseJson args span) logic.Held := by
  unfold Run.parseJson
  split
  · split
    · rename_i json _
      intro machine onward
      have built := Builds.ofJson (logic.self onward) json
      exact ⟨built.leads, built.held _ List.mem_cons_self, rfl⟩
    · exact fail here rfl
  · exact fail here rfl

theorem exitProcess :
    logic.Relates world (Run.exit args span) (Run.exit args span) logic.Held := by
  refine (lift here (Converts.exitCode args.head?)).andThen fun code => ?_
  exact andThen note fun _ => exit

theorem ofTextAnswer {method : TextMethod} {s : String} :
    logic.Relates world (do Run.ofTextAnswer (← Run.lift span (method.answer s args)))
      (do Run.ofTextAnswer (← Run.lift span (method.answer s args))) logic.Held := by
  refine (lift here (Converts.textAnswer method s args)).bind fun _ answer _ copied => ?_
  cases answer with
  | value given => exact value (held_of_isCopied copied)
  | parts parts => exact newList (.map fun _ _ => held_of_isCopied trivial)

variable (held : logic.HeldItems world args)
include held

theorem callback {method : ListMethod} :
    logic.Relates world (Evaluator.callback method args span)
      (Evaluator.callback method args span) logic.Held := by
  unfold Evaluator.callback
  split
  · rename_i first
    exact value (held _ (List.mem_of_mem_head? first))
  · exact fail here rfl

theorem objectArgument {function : GlobalFunction} :
    logic.Relates world (Run.objectArgument function args span)
      (Run.objectArgument function args span)
      fun machine ref => logic.Held machine (.object ref) := by
  refine readThen fun machine onward => ?_
  cases found : args.head?.bind machine.heap.members? with
  | some ref =>
      rcases Option.bind_eq_some_iff.mp found with ⟨first, isFirst, members⟩
      have firstHeld := (held first (List.mem_of_mem_head? isFirst)).later onward
      exact pure fun _ further => (held_members (logic.self onward) firstHeld members).later further
  | none => exact fail here rfl

theorem enqueue :
    logic.Relates world (Run.enqueue args span) (Run.enqueue args span) logic.Held := by
  unfold Run.enqueue
  split
  · rename_i ref arguments
    have task : logic.HeldTask world { callback := .function ref, arguments } :=
      ⟨held _ List.mem_cons_self, held.subset fun _ => List.mem_cons_of_mem _⟩
    refine (schedules fun machine onward tracks => ?_).andThen fun _ =>
      value (held_of_isCopied trivial)
    exact (task.later onward).append (logic.self onward) tracks
  · exact fail here rfl

end Placed

end Relates

namespace Covers

variable {asked : Code → Prop} {ev other : Evaluator} {scope : FrameRef}
  (covers : logic.Covers asked ev other) (here : logic.place span)
include covers here

/-! ## Calling back -/

section Asking

variable {function : Value} {ref : ListRef} {element : Value × Nat}
  (functionHeld : logic.Held world function) (listHeld : logic.Held world (.list ref))
  (held : logic.Held world element.1)
include functionHeld listHeld held

theorem ask :
    logic.Relates world (ev.ask function ref scope span element)
      (other.ask function ref scope span element) logic.Held :=
  covers.call here functionHeld nofun
    (.cons held (.cons (held_of_isCopied trivial) (.cons listHeld .nil)))

theorem accepts :
    logic.Relates world (ev.accepts function ref scope span element)
      (other.accepts function ref scope span element) :=
  (covers.ask here functionHeld listHeld held).andThen fun _ => .isTrue

end Asking

theorem comparatorLess {comparator a b : Value} (held : logic.Held world comparator)
    (first : logic.Held world a) (second : logic.Held world b) :
    logic.Relates world (ev.comparatorLess comparator scope span a b)
      (other.comparatorLess comparator scope span a b) := by
  have called : logic.Relates world (ev.call comparator none [a, b] scope span)
      (other.call comparator none [a, b] scope span) logic.Held :=
    covers.call here held nofun (.cons first (.cons second .nil))
  refine called.andThen fun answer => ?_
  exact (Relates.lift here (Converts.toNumber answer)).andThen fun _ => .done

/-! ## Methods of lists -/

section Lists

variable {method : ListMethod} {ref : ListRef} {args : List Value}
  (listHeld : logic.Held world (.list ref)) (held : logic.HeldItems world args)
include listHeld held

theorem sortList :
    logic.Relates world (ev.sortList ref args scope span) (other.sortList ref args scope span)
      logic.Held := by
  refine Relates.items.bind fun machine elements onward elementsHeld => ?_
  have stored : ∀ {sorting same : Run (List Value)},
      logic.Relates machine sorting same logic.HeldItems →
      logic.Relates machine
        (do
          let sorted ← sorting
          Run.setList ref sorted.toArray
          pure (Value.list ref))
        (do
          let sorted ← same
          Run.setList ref sorted.toArray
          pure (Value.list ref)) logic.Held :=
    fun sorting => sorting.bind fun _ _ further sortedHeld =>
      (Relates.setList sortedHeld).andThen fun _ => .value ((listHeld.later onward).later further)
  have byDefault : logic.Relates machine
      (Run.read fun heap => Elements.sorted heap elements.toList)
      (Run.read fun heap => Elements.sorted heap elements.toList) logic.HeldItems :=
    .read fun _ further => (elementsHeld.later further).subset fun _ => List.mem_mergeSort.mp
  dsimp only
  split
  · exact stored byDefault
  · exact stored byDefault
  · rename_i comparator first
    have comparatorHeld := (held _ (List.mem_of_mem_head? first)).later onward
    refine stored (.sortedByM (fun after further a b aHeld bHeld => ?_) elementsHeld)
    exact covers.comparatorLess here (comparatorHeld.later further) aHeld bHeld
  · exact stored (.fail here rfl)

theorem reduceList {elements : List (Value × Nat)}
    (elementsHeld : ∀ element ∈ elements, logic.Held world element.1) :
    logic.Relates world (ev.reduceList method ref args elements scope span)
      (other.reduceList method ref args elements scope span) logic.Held := by
  refine (Relates.callback here held).bind fun machine function onward functionHeld => ?_
  have fold : ∀ (start : Value) (rest : List (Value × Nat)), logic.Held machine start →
      (∀ element ∈ rest, logic.Held world element.1) →
      logic.Relates machine
        (rest.foldlM (fun accumulator element => ev.call function none
          [accumulator, element.1, .ofNat element.2, .list ref] scope span) start)
        (rest.foldlM (fun accumulator element => other.call function none
          [accumulator, element.1, .ofNat element.2, .list ref] scope span) start) logic.Held := by
    intro start rest startHeld restHeld
    refine .foldlM lasting_held startHeld fun element member after accumulator further kept => ?_
    have onward := logic.trans onward further
    refine covers.call here (functionHeld.later further) nofun (.cons kept (.cons ?_ (.cons ?_ ?_)))
    · exact (restHeld element member).later onward
    · exact held_of_isCopied trivial
    · exact .cons (listHeld.later onward) .nil
  dsimp only
  split
  · rename_i initial given
    exact fold initial _ ((held initial (List.mem_of_getElem? given)).later onward) elementsHeld
  · rename_i first rest _
    exact fold first.1 rest ((elementsHeld first List.mem_cons_self).later onward)
      fun element member => elementsHeld element (List.mem_cons_of_mem first member)
  · exact .fail here rfl

omit covers in
/-- Methods that call back fetch the function and then the elements. -/
private theorem calling {next same : Value → List (Value × Nat) → Run Value}
    (rest : ∀ after function elements, logic.leads world after → logic.Held after function →
      logic.Held after (.list ref) → (∀ element ∈ elements, logic.Held after element.1) →
      logic.Relates after (next function elements) (same function elements) logic.Held) :
    logic.Relates world
      (do
        let function ← Evaluator.callback method args span
        let elements ← Evaluator.elements ref
        next function elements)
      (do
        let function ← Evaluator.callback method args span
        let elements ← Evaluator.elements ref
        same function elements) logic.Held := by
  refine (Relates.callback here held).bind fun middle function onward functionHeld => ?_
  refine Relates.elements.bind fun after elements further elementsHeld => ?_
  have led := logic.trans onward further
  exact rest after function elements led (functionHeld.later further) (listHeld.later led)
    elementsHeld

theorem runListMethod :
    logic.Relates world (ev.runListMethod method ref args scope span)
      (other.runListMethod method ref args scope span) logic.Held := by
  have plain : ∀ {value : Value} {world : Machine}, value.IsCopied → logic.Held world value :=
    fun copied => held_of_isCopied copied
  cases method with
  | push =>
      refine (Relates.modifyList fun machine onward => ?_).andThen fun _ =>
        Relates.items.andThen fun _ => .value (plain trivial)
      rw [Array.toList_append]
      exact (held_list (logic.self onward) ref).append (held.later onward)
  | pop =>
      refine Relates.items.bind fun machine items onward itemsHeld => ?_
      refine (Relates.modifyList fun after further => ?_).andThen fun _ => .value ?_
      · rw [Array.toList_pop]
        exact (held_list (logic.self further) ref).subset fun _ member =>
          List.dropLast_subset _ member
      · cases last : items.back? with
        | none => exact plain trivial
        | some item => exact itemsHeld item (Array.mem_toList_iff.mpr (Array.mem_of_back? last))
  | shift =>
      refine Relates.items.bind fun machine items onward itemsHeld => ?_
      refine (Relates.setList ?_).andThen fun _ => .value (held_elementAt itemsHeld 0)
      exact itemsHeld.subset fun _ => Converts.mem_of_mem_extract
  | unshift =>
      refine (Relates.modifyList fun machine onward => ?_).andThen fun _ =>
        Relates.items.andThen fun _ => .value (plain trivial)
      rw [Array.toList_append]
      exact (held.later onward).append (held_list (logic.self onward) ref)
  | sort => exact covers.sortList here listHeld held
  | reverse =>
      refine (Relates.modifyList fun machine onward => ?_).andThen fun _ => .value listHeld
      rw [Array.toList_reverse]
      exact (held_list (logic.self onward) ref).subset fun _ => List.mem_reverse.mp
  | splice =>
      refine Relates.items.bind fun middle items onward itemsHeld => ?_
      refine (Relates.lift here (Converts.cut itemsHeld args)).bind
        fun after cut further ⟨front, removed, back⟩ => ?_
      have held := (held.later onward).later further
      refine (Relates.setList ?_).andThen fun _ =>
        .newList (Terms.HeldItems.later removed further)
      rw [Array.toList_append, Array.toList_append]
      refine .append (.append (Terms.HeldItems.later front further) ?_)
        (Terms.HeldItems.later back further)
      exact held.subset fun _ => List.mem_of_mem_drop
  | map =>
      refine calling here listHeld held fun after function elements _ asked list each => ?_
      exact (Relates.mapM lasting_held fun element member =>
        covers.ask here asked list (each element member)).bind fun _ _ _ held => .newList held
  | filter =>
      refine calling here listHeld held fun after function elements _ asked list each => ?_
      refine (Relates.filterM fun element member =>
        covers.accepts here asked list (each element member)).bind fun _ picked further within => ?_
      exact .newList (.map fun element member =>
        (each element (within element member)).later further)
  | forEach =>
      refine calling here listHeld held fun after function elements _ asked list each => ?_
      exact (Relates.mapM lasting_held fun element member =>
        covers.ask here asked list (each element member)).andThen fun _ => .value (plain trivial)
  | find =>
      refine calling here listHeld held fun after function elements _ asked list each => ?_
      refine (Relates.findM? fun element member =>
        covers.accepts here asked list (each element member)).bind fun _ found further within => ?_
      refine .value ?_
      cases found with
      | none => exact plain trivial
      | some element => exact (each element (within element rfl)).later further
  | some =>
      refine calling here listHeld held fun after function elements _ asked list each => ?_
      refine (Relates.anyM fun element member => ?_).andThen fun _ => .value (plain trivial)
      exact covers.accepts here asked list (each element member)
  | every =>
      refine calling here listHeld held fun after function elements _ asked list each => ?_
      refine (Relates.allM fun element member => ?_).andThen fun _ => .value (plain trivial)
      exact covers.accepts here asked list (each element member)
  | includes => exact Relates.items.andThen fun _ => .value (plain trivial)
  | indexOf =>
      refine Relates.items.andThen fun _ => ?_
      split <;> exact .value (plain trivial)
  | reduce =>
      refine Relates.elements.bind fun _ _ onward elementsHeld => ?_
      exact covers.reduceList here (listHeld.later onward) (held.later onward) elementsHeld
  | reduceRight =>
      refine Relates.elements.bind fun _ _ onward elementsHeld => ?_
      refine covers.reduceList here (listHeld.later onward) (held.later onward) ?_
      exact fun element member => elementsHeld element (List.mem_reverse.mp member)
  | slice =>
      refine Relates.items.bind fun middle items onward itemsHeld => ?_
      refine (Relates.lift here (Converts.slice itemsHeld args)).bind fun _ _ further picked => ?_
      exact .newList (Terms.HeldItems.later picked further)
  | join => exact Relates.reads.andThen fun _ => .value (plain trivial)
  | concat =>
      refine Relates.items.bind fun middle items onward itemsHeld => ?_
      refine .readThen fun machine further => .newList ?_
      rw [Array.toList_append]
      refine (itemsHeld.later further).append fun item member => ?_
      rcases List.mem_flatMap.mp member with ⟨arg, inArgs, added⟩
      unfold Elements.flattened at added
      split at added
      · exact held_list (logic.self further) _ item added
      · cases List.mem_singleton.mp added
        exact (held _ inArgs).later (logic.trans onward further)
  | toString => exact Relates.text.andThen fun _ => .value (plain trivial)

end Lists

/-! ## Global functions -/

theorem publicEntries {ref : ObjectRef} (held : logic.Held world (.object ref)) :
    logic.Relates world (ev.publicEntries ref scope span) (other.publicEntries ref scope span)
      fun machine entries => ∀ entry ∈ entries, logic.Held machine entry.2 :=
  .readThen fun _ onward => covers.readProperties here (held.later onward)

/-- Every fault of a global function has its place once it has come out of the call. -/
theorem runGlobal {function : GlobalFunction} {args : List Value}
    (held : logic.HeldItems world args) :
    logic.Relates world (Run.orAt span (ev.runGlobal function args scope span))
      (Run.orAt span (other.runGlobal function args scope span)) logic.Held := by
  have target : ∀ function, _ := fun function =>
    @Relates.objectArgument logic world span args here held function
  have plain : ∀ {value : Value} {world : Machine}, value.IsCopied → logic.Held world value :=
    fun copied => held_of_isCopied copied
  have timer : ∀ {name : String} {repeats : Bool}, logic.Relates world
      (Run.orAt span do
        let request ← Run.lift span (TimerRequest.ofArguments name args)
        Run.startTimer request repeats)
      (Run.orAt span do
        let request ← Run.lift span (TimerRequest.ofArguments name args)
        Run.startTimer request repeats) logic.Held := by
    intro name repeats
    rw [Run.orAt_bind]
    refine (Relates.orAt here (Relates.lift here (Converts.timerArguments held name))).bind
      fun _ request onward task => ?_
    exact .startTimer here (HeldTask.later task onward)
  cases function with
  | setTimeout | setInterval => exact timer
  | nap =>
      dsimp only [Evaluator.runGlobal]
      rw [Run.orAt_bind]
      have converts := Converts.napArguments held (plain trivial)
      refine (Relates.orAt here (Relates.lift here converts)).bind fun _ request onward task => ?_
      exact .startTimer here (HeldTask.later task onward)
  | typeOf => exact .orAt here (.value (plain trivial))
  | toNumber =>
      have number := Converts.toNumber (args.headD .null)
      exact .orAt here ((Relates.lift here number).andThen fun _ => .value (plain trivial))
  | toText => exact .orAt here (Relates.text.andThen fun _ => .value (plain trivial))
  | toBool => exact .orAt here (Relates.isTrue.andThen fun _ => .value (plain trivial))
  | toList => exact .orAt here (.newList held)
  | objectKeys =>
      refine .orAt here ((target .objectKeys).andThen fun ref =>
        Relates.reads.andThen fun keys => ?_)
      exact .newList (.map fun _ _ => plain trivial)
  | objectValues =>
      refine .orAt here ((target .objectValues).bind fun machine ref _ refHeld => ?_)
      refine (covers.publicEntries here refHeld).bind fun _ _ _ values => .newList ?_
      exact .map values
  | objectEntries =>
      refine .orAt here ((target .objectEntries).bind fun machine ref _ refHeld => ?_)
      refine (covers.publicEntries here refHeld).bind fun after entries _ values => ?_
      refine (Relates.mapM lasting_held fun entry member => ?_).bind fun _ _ _ held => .newList held
      exact .newList (.cons (plain trivial) (.cons (values entry member) .nil))
  | objectFreeze =>
      refine .orAt here ((target .objectFreeze).andThen fun ref => ?_)
      exact Relates.freeze.andThen fun _ => .value held.headD
  | objectIsFrozen =>
      refine .orAt here ((target .objectIsFrozen).andThen fun ref => ?_)
      exact Relates.reads.andThen fun _ => .value (plain trivial)
  | jsonStringify => exact .orAt here (.stringify here)
  | jsonParse => exact .orAt here (.parseJson here)
  | exit => exact .orAt here (.exitProcess here)
  | clearTimeout | clearInterval =>
      exact .orAt here ((Relates.lift here (Converts.timerId args)).andThen fun _ => .cancelTimer)
  | enqueue | queueMicrotask | queueMacrotask => exact .orAt here (.enqueue here held)

/-- A built-in function has a place for all its faults once it is called. -/
theorem runBuiltin {builtin : Builtin} {args : List Value}
    (receiver : ∀ method ref, builtin = .list method ref → logic.Held world (.list ref))
    (held : logic.HeldItems world args) :
    logic.Relates world (Run.orAt span (ev.runBuiltin builtin args scope span))
      (Run.orAt span (other.runBuiltin builtin args scope span)) logic.Held := by
  cases builtin with
  | text method s => exact .orAt here (.ofTextAnswer here)
  | number method x => exact .orAt here (.conversion here (Converts.numberAnswer method x args))
  | list method ref => exact .orAt here (covers.runListMethod here (receiver method ref rfl) held)
  | global function => exact covers.runGlobal here held

end Covers

end Logic

end Hati
