import Hati.Interpreter
import Hati.Proofs.Allocation
import Hati.Proofs.Ranges

namespace Hati

/-!
# Cutting lists

A slice copies a part of a list into a new list.  A splice moves a part out of the list, into a new
list, and puts other elements in its place.  Either way the elements are those of the list before:
what stands in front of the part, the part, and what stands behind it.  So a splice can be undone,
and two slices that meet make up the list.

Both look at their arguments before they touch the list.
-/

/-! ## New lists -/

/-- A new list was made with these items, and nothing else was changed. -/
structure Machine.MakesList (before after : Machine) (made : ListRef) (items : List Value) :
    Prop where
  elsewhere : after = { before with heap := { before.heap with lists := after.heap.lists } }
  fresh : ¬before.heap.Holds (.list made)
  held : after.heap.Holds (.list made)
  items : after.heap.list made = items.toArray
  others : ∀ other, before.heap.Holds (.list other) →
    after.heap.Holds (.list other) ∧ after.heap.list other = before.heap.list other

theorem Run.newList_makes (items : List Value) (before : Machine) :
    ∃ made after, newList items.toArray before = .ok (.list made) after ∧
      before.MakesList after made items := by
  have grows : (before.heap.allocList items.toArray).2.lists.size = before.heap.lists.size + 1 :=
    Array.size_push _
  refine ⟨_, _, rfl, {
    elsewhere := rfl
    fresh := Nat.lt_irrefl _
    held := Nat.lt_of_lt_of_eq (Nat.lt_succ_self _) grows.symm
    items := Heap.list_allocList before.heap items.toArray
    others := fun other held => ⟨Nat.lt_of_lt_of_eq (Nat.lt_succ_of_lt held) grows.symm, ?_⟩ }⟩
  have apart : other.index ≠ before.heap.lists.size := Nat.ne_of_lt held
  show (before.heap.lists.push items.toArray).getD other.index #[] = _
  rw [Array.getD_eq_getD_getElem?, Array.getElem?_push, if_neg apart, Heap.list,
    Array.getD_eq_getD_getElem?]

/-! ## Three parts of a list -/

section Parts

variable {front part back : List Value}

/-- A list from one position up to another, with what stands before and behind. -/
theorem List.take_append_take_append_drop (items : List Value) {start stop : Nat}
    (ordered : start ≤ stop) :
    items.take start ++ (items.drop start).take (stop - start) ++ items.drop stop = items := by
  have inner := List.take_append_drop (stop - start) (items.drop start)
  rw [List.drop_drop, Nat.add_sub_of_le ordered] at inner
  rw [List.append_assoc, inner, List.take_append_drop]

theorem extract_parts {elements : Array Value} (parts : elements.toList = front ++ part ++ back) :
    elements.extract 0 front.length = front.toArray ∧
    elements.extract front.length (front.length + part.length) = part.toArray ∧
    elements.extract (front.length + part.length) elements.size = back.toArray := by
  obtain rfl : elements = (front ++ part ++ back).toArray := by
    rw [← parts]
  have rest : back.length ≤
      front.length + (part.length + back.length) - (front.length + part.length) := by
    omega
  simpa using rest

end Parts

/-! ## Splices -/

/-- How a splice ends: at an argument that stands for no number, or with the part in a new list and
the other arguments in its place.  The same operation then puts the part back, if it is told the
place and how many elements it has to take out there. -/
inductive SpliceEnds (splice : List Value → Run Value) (ref : ListRef) (args : List Value)
    (span : Span) (before : Machine) : EStateM.Result Halt Machine Value → Prop where
  | refused {cause : Cause}
    (unfit : (args.headD (.number 0)).toIndex = .error cause ∨
      ∃ start, (args.headD (.number 0)).toIndex = .ok start ∧
        indexArgument args[1]? = .error cause) :
    SpliceEnds splice ref args span before (.error (.fault ⟨cause, span⟩) before)
  | replaced {front part back : List Value} {start : Int} {count : Option Int} {made : ListRef}
    {after : Machine}
    (starts : (args.headD (.number 0)).toIndex = .ok start)
    (counts : indexArgument args[1]? = .ok count)
    (parts : (before.heap.list ref).toList = front ++ part ++ back)
    (place : front.length = normalizeBound start (before.heap.list ref).size)
    (extent : part.length = countOr ((before.heap.list ref).size - front.length) count)
    (content : (after.heap.list ref).toList = front ++ args.drop 2 ++ back)
    (elsewhere : Machine.MakesList
      { before with heap := before.heap.setList ref (front ++ args.drop 2 ++ back).toArray }
      after made part)
    (undone : ∀ position number : Value, position.toIndex = .ok front.length →
      number.toIndex = .ok (args.drop 2).length →
      ∃ again last, splice (position :: number :: part) after = .ok (.list again) last ∧
        last.heap.list ref = before.heap.list ref ∧
        (last.heap.list again).toList = args.drop 2) :
    SpliceEnds splice ref args span before (.ok (.list made) after)

section Splices

variable {ev : Evaluator} {ref : ListRef} {args front part back : List Value} {scope : FrameRef}
  {span : Span} {machine : Machine} {start : Int} {count : Option Int} {cause : Cause}

theorem Elements.cut_of_parts {elements : Array Value}
    (starts : (args.headD (.number 0)).toIndex = .ok start)
    (counts : indexArgument args[1]? = .ok count)
    (parts : elements.toList = front ++ part ++ back)
    (place : front.length = normalizeBound start elements.size)
    (extent : part.length = countOr (elements.size - front.length) count) :
    cut elements args = .ok ⟨front.toArray, part.toArray, back.toArray⟩ := by
  obtain ⟨before, inside, behind⟩ := extract_parts parts
  unfold cut
  rw [starts]
  show (removalCount args[1]? (elements.size - normalizeBound start elements.size) >>= _) = _
  rw [removalCount_eq, counts, ← place]
  show Except.ok (ε := Cause) (Cut.mk (elements.extract 0 front.length)
    (elements.extract front.length (front.length + countOr _ count))
    (elements.extract (front.length + countOr _ count) elements.size)) = _
  rw [← extent, before, inside, behind]

/-- The arguments are looked at in order. -/
theorem Elements.cut_of_unfit (elements : Array Value)
    (unfit : (args.headD (.number 0)).toIndex = .error cause ∨
      ∃ start, (args.headD (.number 0)).toIndex = .ok start ∧
        indexArgument args[1]? = .error cause) :
    cut elements args = .error cause := by
  unfold cut
  rcases unfit with unfit | ⟨start, starts, unfit⟩
  · rw [unfit]
    rfl
  · rw [starts]
    show (removalCount args[1]? (elements.size - normalizeBound start elements.size) >>= _) = _
    rw [removalCount_eq, unfit]
    rfl

theorem splice_of_parts
    (starts : (args.headD (.number 0)).toIndex = .ok start)
    (counts : indexArgument args[1]? = .ok count)
    (parts : (machine.heap.list ref).toList = front ++ part ++ back)
    (place : front.length = normalizeBound start (machine.heap.list ref).size)
    (extent : part.length = countOr ((machine.heap.list ref).size - front.length) count) :
    ev.runListMethod .splice ref args scope span machine =
      Run.newList part.toArray
        { machine with
          heap := machine.heap.setList ref (front ++ args.drop 2 ++ back).toArray } := by
  show (Run.lift span (Elements.cut (machine.heap.list ref) args) >>= _) machine = _
  have joined : front.toArray ++ (args.drop 2).toArray ++ back.toArray =
      (front ++ args.drop 2 ++ back).toArray := by
    simp only [List.append_toArray]
  rw [Elements.cut_of_parts starts counts parts place extent, ← joined]
  rfl

theorem splice_replaces (held : machine.heap.Holds (.list ref))
    (starts : (args.headD (.number 0)).toIndex = .ok start)
    (counts : indexArgument args[1]? = .ok count)
    (parts : (machine.heap.list ref).toList = front ++ part ++ back)
    (place : front.length = normalizeBound start (machine.heap.list ref).size)
    (extent : part.length = countOr ((machine.heap.list ref).size - front.length) count) :
    ∃ made after, ev.runListMethod .splice ref args scope span machine = .ok (.list made) after ∧
      after.heap.list ref = (front ++ args.drop 2 ++ back).toArray ∧
      after.heap.Holds (.list ref) ∧
      Machine.MakesList
        { machine with heap := machine.heap.setList ref (front ++ args.drop 2 ++ back).toArray }
        after made part := by
  let rewritten : Machine :=
    { machine with heap := machine.heap.setList ref (front ++ args.drop 2 ++ back).toArray }
  have still : rewritten.heap.Holds (.list ref) := Nat.lt_of_lt_of_eq held Array.size_modify.symm
  obtain ⟨made, after, ends, makes⟩ := Run.newList_makes part rewritten
  obtain ⟨kept, content⟩ := makes.others ref still
  refine ⟨made, after, ?_, ?_, kept, makes⟩
  · rw [splice_of_parts starts counts parts place extent]
    exact ends
  · rw [content]
    exact Heap.list_modifyList_self machine.heap ref _ held

/-- A splice at the same place that takes out what was put there, and puts back what was taken out,
makes the list what it was. -/
theorem splice_undoes {position number : Value} (held : machine.heap.Holds (.list ref))
    (content : machine.heap.list ref = (front ++ part ++ back).toArray)
    (place : position.toIndex = .ok front.length) (extent : number.toIndex = .ok part.length)
    (inserted : List Value) :
    ∃ made after,
      ev.runListMethod .splice ref (position :: number :: inserted) scope span machine =
        .ok (.list made) after ∧
      after.heap.list ref = (front ++ inserted ++ back).toArray ∧
      (after.heap.list made).toList = part := by
  have size : (machine.heap.list ref).size = front.length + (part.length + back.length) := by
    rw [content]
    simp
  have counts : indexArgument (position :: number :: inserted)[1]? = .ok (some part.length) :=
    indexArgument_of_toIndex extent
  obtain ⟨made, after, ends, rewritten, -, makes⟩ :=
    @splice_replaces ev ref (position :: number :: inserted) front part back scope span machine
      front.length (some part.length) held place counts (by rw [content])
      (by rw [normalizeBound_natCast]; omega) (by simp only [countOr]; omega)
  exact ⟨made, after, ends, rewritten, by rw [makes.items]⟩

theorem splice_of_unfit
    (unfit : (args.headD (.number 0)).toIndex = .error cause ∨
      ∃ start, (args.headD (.number 0)).toIndex = .ok start ∧
        indexArgument args[1]? = .error cause) :
    ev.runListMethod .splice ref args scope span machine =
      .error (.fault ⟨cause, span⟩) machine := by
  show (Run.lift span (Elements.cut (machine.heap.list ref) args) >>= _) machine = _
  rw [Elements.cut_of_unfit _ unfit]
  rfl

theorem spliceEnds (held : machine.heap.Holds (.list ref)) (args : List Value) :
    SpliceEnds (fun args => ev.runListMethod .splice ref args scope span) ref args span machine
      (ev.runListMethod .splice ref args scope span machine) := by
  cases starts : (args.headD (.number 0)).toIndex with
  | error cause =>
      rw [splice_of_unfit (.inl starts)]
      exact .refused (.inl starts)
  | ok start =>
      cases counts : indexArgument args[1]? with
      | error cause =>
          rw [splice_of_unfit (.inr ⟨start, starts, counts⟩)]
          exact .refused (.inr ⟨start, starts, counts⟩)
      | ok count =>
          let items := (machine.heap.list ref).toList
          let place := normalizeBound start (machine.heap.list ref).size
          let extent := countOr ((machine.heap.list ref).size - place) count
          have inside : place ≤ items.length := normalizeBound_le start _
          have fits : extent ≤ items.length - place := countOr_le _ count
          have front : (items.take place).length = place := List.length_take_of_le inside
          have part : ((items.drop place).take extent).length = extent := by
            rw [List.length_take_of_le]
            rwa [List.length_drop]
          have parts := List.take_append_take_append_drop items (Nat.le_add_right place extent)
          rw [Nat.add_sub_cancel_left] at parts
          obtain ⟨made, after, ends, content, still, makes⟩ :=
            @splice_replaces ev ref args _ _ _ scope span machine start count held starts counts
              parts.symm front (by rw [part, front])
          rw [ends]
          refine .replaced starts counts parts.symm front (by rw [part, front]) (by rw [content])
            makes ?_
          intro position number stands measures
          obtain ⟨again, last, undoes, restored, removed⟩ :=
            @splice_undoes ev ref _ (args.drop 2) _ scope span after position number still content
              stands measures ((items.drop place).take extent)
          refine ⟨again, last, undoes, ?_, removed⟩
          rw [restored, parts]

end Splices

/-! ## Slices -/

/-- How a slice ends: at a bound that stands for no number, or with the part between the bounds in a
new list. -/
inductive SliceEnds (ref : ListRef) (args : List Value) (span : Span) (before : Machine) :
    EStateM.Result Halt Machine Value → Prop where
  | refused {cause : Cause}
    (unfit : indexArgument args[0]? = .error cause ∨
      ∃ first, indexArgument args[0]? = .ok first ∧ indexArgument args[1]? = .error cause) :
    SliceEnds ref args span before (.error (.fault ⟨cause, span⟩) before)
  | copied {first last : Option Int} {start stop : Nat} {part : List Value} {made : ListRef}
    {after : Machine}
    (begins : indexArgument args[0]? = .ok first)
    (ends : indexArgument args[1]? = .ok last)
    (start_eq : start = boundOr 0 (before.heap.list ref).size first)
    (stop_eq : stop = boundOr (before.heap.list ref).size (before.heap.list ref).size last)
    (contiguous : start ≤ stop → ∃ front back,
      (before.heap.list ref).toList = front ++ part ++ back ∧ front.length = start ∧
        front.length + part.length = stop)
    (crossed : stop ≤ start → part = [])
    (makes : before.MakesList after made part) :
    SliceEnds ref args span before (.ok (.list made) after)

section Slices

variable {ev : Evaluator} {ref : ListRef} {args : List Value} {scope : FrameRef} {span : Span}
  {machine : Machine} {first last : Option Int} {cause : Cause}

theorem slice_makes (begins : indexArgument args[0]? = .ok first)
    (ends : indexArgument args[1]? = .ok last) :
    let start := boundOr 0 (machine.heap.list ref).size first
    let stop := boundOr (machine.heap.list ref).size (machine.heap.list ref).size last
    ∃ made after, ev.runListMethod .slice ref args scope span machine = .ok (.list made) after ∧
      machine.MakesList after made
        (((machine.heap.list ref).toList.drop start).take (stop - start)) := by
  intro start stop
  have range := rangeArguments_of_indices begins ends (machine.heap.list ref).size
  have part : (machine.heap.list ref).extract start stop =
      (((machine.heap.list ref).toList.drop start).take (stop - start)).toArray := by
    rw [← Array.toList_inj, Array.toList_extract, List.extract_eq_take_drop]
  obtain ⟨made, after, made_eq, makes⟩ :=
    Run.newList_makes (((machine.heap.list ref).toList.drop start).take (stop - start)) machine
  refine ⟨made, after, ?_, makes⟩
  show (Run.lift span (Elements.slice (machine.heap.list ref) args) >>= Run.newList) machine = _
  rw [Elements.slice, range, ← made_eq, ← part]
  rfl

theorem slice_of_unfit
    (unfit : indexArgument args[0]? = .error cause ∨
      ∃ first, indexArgument args[0]? = .ok first ∧ indexArgument args[1]? = .error cause) :
    ev.runListMethod .slice ref args scope span machine =
      .error (.fault ⟨cause, span⟩) machine := by
  show (Run.lift span (Elements.slice (machine.heap.list ref) args) >>= Run.newList) machine = _
  rw [Elements.slice, rangeArguments_of_unfit unfit]
  rfl

theorem sliceEnds (ref : ListRef) (args : List Value) :
    SliceEnds ref args span machine (ev.runListMethod .slice ref args scope span machine) := by
  cases begins : indexArgument args[0]? with
  | error cause =>
      rw [slice_of_unfit (.inl begins)]
      exact .refused (.inl begins)
  | ok first =>
      cases ends : indexArgument args[1]? with
      | error cause =>
          rw [slice_of_unfit (.inr ⟨first, begins, ends⟩)]
          exact .refused (.inr ⟨first, begins, ends⟩)
      | ok last =>
          obtain ⟨made, after, sliced, makes⟩ :=
            @slice_makes ev ref args scope span machine first last begins ends
          rw [sliced]
          refine .copied begins ends rfl rfl (fun ordered => ?_) (fun crossed => ?_) makes
          · have inside := boundOr_le (Nat.le_refl (machine.heap.list ref).size) last
            have parts := List.take_append_take_append_drop (machine.heap.list ref).toList ordered
            refine ⟨_, _, parts.symm, ?_, ?_⟩
            · rw [List.length_take_of_le (Nat.le_trans ordered inside)]
            · rw [List.length_take_of_le (Nat.le_trans ordered inside), List.length_take_of_le]
              · omega
              · rw [List.length_drop]
                exact Nat.sub_le_sub_right inside _
          · rw [Nat.sub_eq_zero_of_le crossed, List.take_zero]

/-- Two slices that meet make up the list. -/
theorem slices_meet (held : machine.heap.Holds (.list ref)) {middle : Value} {index : Int}
    (stands : middle.toIndex = .ok index) :
    ∃ left between right after,
      ev.runListMethod .slice ref [.number 0, middle] scope span machine =
        .ok (.list left) between ∧
      ev.runListMethod .slice ref [middle] scope span between = .ok (.list right) after ∧
      (after.heap.list left).toList ++ (after.heap.list right).toList =
        (machine.heap.list ref).toList := by
  have fromZero : indexArgument [.number 0, middle][0]? = .ok (some 0) :=
    indexArgument_of_toIndex Value.toIndex_zero
  have toMiddle : indexArgument [.number 0, middle][1]? = .ok (some index) :=
    indexArgument_of_toIndex stands
  have fromMiddle : indexArgument [middle][0]? = .ok (some index) :=
    indexArgument_of_toIndex stands
  obtain ⟨left, between, sliced, makesLeft⟩ :=
    @slice_makes ev ref [.number 0, middle] scope span machine _ _ fromZero toMiddle
  obtain ⟨right, after, slicedRest, makesRight⟩ :=
    @slice_makes ev ref [middle] scope span between _ _ fromMiddle rfl
  refine ⟨left, between, right, after, sliced, slicedRest, ?_⟩
  obtain ⟨-, sameList⟩ := makesLeft.others ref held
  obtain ⟨-, sameLeft⟩ := makesRight.others left makesLeft.held
  have zero : normalizeBound 0 (machine.heap.list ref).size = 0 :=
    (normalizeBound_natCast 0 _).trans (Nat.zero_min _)
  have rest : ((machine.heap.list ref).toList.drop
      (normalizeBound index (machine.heap.list ref).size)).length ≤
        (machine.heap.list ref).size - normalizeBound index (machine.heap.list ref).size := by
    rw [List.length_drop, Array.length_toList]
  rw [sameLeft, makesLeft.items, makesRight.items, sameList]
  simp only [boundOr, zero, List.drop_zero, Nat.sub_zero, List.take_of_length_le rest,
    List.take_append_drop]

end Slices

namespace Evaluator

/-- Splices and slices lose no element and make up none, whatever their arguments are.  On the way
every number stays a word, as long as the length is one, and every bound stays between zero and the
length. -/
theorem cuts_conserve_elements (ev : Evaluator) (scope : FrameRef) (span : Span) {ref : ListRef}
    {machine : Machine} (held : machine.heap.Holds (.list ref)) :
    let items := (machine.heap.list ref).toList
    let splice (args : List Value) := ev.runListMethod .splice ref args scope span
    let slice (args : List Value) := ev.runListMethod .slice ref args scope span
    (∀ args, SpliceEnds splice ref args span machine (splice args machine)) ∧
    (∀ args, SliceEnds ref args span machine (slice args machine)) ∧
    (∀ (middle : Value) (index : Int), middle.toIndex = .ok index →
      ∃ left between right after, slice [.number 0, middle] machine = .ok (.list left) between ∧
        slice [middle] between = .ok (.list right) after ∧
        (after.heap.list left).toList ++ (after.heap.list right).toList = items) ∧
    (∀ (value : Value) (index : Int), value.toIndex = .ok index → Word.IsSigned index) ∧
    (∀ count < 2 ^ 53, (Value.ofNat count).toIndex = .ok (count : Int)) ∧
    (items.length < 2 ^ 63 →
      (∀ index, Word.IsSigned index →
        Word.bound? index items.length = some (normalizeBound index items.length) ∧
        normalizeBound index items.length ≤ items.length) ∧
      ∀ start ≤ items.length, ∀ count,
        let stop := start + countOr (items.length - start) count
        Word.removalEnd? start items.length count = some stop ∧ stop ≤ items.length) := by
  intro items splice slice
  refine ⟨spliceEnds held, sliceEnds ref, fun _ _ stands => slices_meet held stands,
    fun _ _ stands => Value.isSigned_of_toIndex stands, fun _ exact => Value.toIndex_ofNat exact,
    fun fits => ⟨fun index word => ?_, fun start inside count => ?_⟩⟩
  · exact ⟨Word.bound?_eq fits word, normalizeBound_le index _⟩
  · have least := countOr_le (items.length - start) count
    exact ⟨Word.removalEnd?_eq fits inside count, by omega⟩

/-- A list of three texts. -/
def threeTexts : Machine :=
  { Machine.bare {} none with
    heap := { frames := #[{}], lists := #[#[.text "a", .text "b", .text "c"]] } }

/-- The last two texts give way to three others; then the list is put together again. -/
theorem cuts_conserve_elements_undone :
    let splice (args : List Value) := (ofFuel 1).runListMethod .splice ⟨0⟩ args ⟨0⟩ {}
    let others : List Value := [.text "x", .text "y", .text "z"]
    threeTexts.heap.Holds (.list ⟨0⟩) ∧
    ∃ made after, splice (.number (-2) :: .null :: others) threeTexts = .ok (.list made) after ∧
      (after.heap.list ⟨0⟩).toList = .text "a" :: others ∧
      ∃ again last, splice [.number 1, .number 3, .text "b", .text "c"] after =
          .ok (.list again) last ∧
        last.heap.list ⟨0⟩ = threeTexts.heap.list ⟨0⟩ ∧ (last.heap.list again).toList = others := by
  intro splice others
  have held : threeTexts.heap.Holds (.list ⟨0⟩) := Nat.zero_lt_one
  have minusTwo : (Value.number (-2)).toIndex = .ok (-2) := by decide +kernel
  have ends : SpliceEnds splice ⟨0⟩ (.number (-2) :: .null :: others) {} threeTexts
      (splice (.number (-2) :: .null :: others) threeTexts) :=
    (cuts_conserve_elements (ofFuel 1) ⟨0⟩ {} held).1 _
  refine ⟨held, ?_⟩
  generalize splice (.number (-2) :: .null :: others) threeTexts = result at ends
  cases ends with
  | refused unfit =>
      rcases unfit with unfit | ⟨start, -, unfit⟩
      · cases minusTwo.symm.trans unfit
      · cases unfit
  | @replaced front part back start count made after starts counts parts place extent content
      elsewhere undone =>
      cases minusTwo.symm.trans starts
      cases counts
      obtain ⟨first, rfl⟩ := List.length_eq_one_iff.mp place
      obtain ⟨second, third, rfl⟩ := List.length_eq_two.mp extent
      cases parts
      exact ⟨made, after, rfl, content, undone (.number 1) (.number 3) (by decide +kernel)
        (by decide +kernel)⟩

end Evaluator

end Hati
