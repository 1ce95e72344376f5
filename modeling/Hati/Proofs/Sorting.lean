import Hati.Interpreter
import Hati.Proofs.CallContext
import Hati.Proofs.DefaultOrder
import Mathlib.Data.List.Induction

namespace Hati

/-!
# Sorting lists

A list is sorted by the answers of a comparator, or by the default order.  A comparator is a
function of the program: it may change the list that is being sorted, sort it once more,
contradict itself or fail.  What the sort keeps from it is that it works on the elements that
the list had at the beginning, and that it writes only when all questions are answered.

What a sort does is told here by the questions that it asks one after another, with the
machines in between.  It is never assumed that the answers agree with an order; if they do,
the sort is stable for that order.
-/

/-! ## Stable sorts -/

section Stability

variable {α : Type} {le : α → α → Bool} {items sorted front back : List α} {a b c item : α}

/-- Two elements of which each may come before the other. -/
def tied (le : α → α → Bool) (a b : α) : Bool :=
  le a b && le b a

theorem tied_iff : tied le a b = true ↔ le a b = true ∧ le b a = true :=
  Bool.and_eq_true_iff

/-- The elements in order; those that are tied keep the order that they had. -/
structure IsStableSort (le : α → α → Bool) (items sorted : List α) : Prop where
  perm : sorted.Perm items
  ordered : sorted.Pairwise fun a b => le a b = true
  stable : ∀ a ∈ items, sorted.filter (tied le a) = items.filter (tied le a)

theorem IsPreorderOn.subset {others : List α} (preorder : IsPreorderOn le items)
    (inside : ∀ a ∈ others, a ∈ items) : IsPreorderOn le others where
  total a memberA b memberB := preorder.total a (inside a memberA) b (inside b memberB)
  trans a memberA b memberB c memberC :=
    preorder.trans a (inside a memberA) b (inside b memberB) c (inside c memberC)

/-- What is tied with one of two tied elements is tied with the other. -/
theorem IsPreorderOn.tied_congr (preorder : IsPreorderOn le items) (memberA : a ∈ items)
    (memberB : b ∈ items) (memberC : c ∈ items) (ties : tied le a b = true) :
    tied le a c = tied le b c := by
  obtain ⟨before, behind⟩ := tied_iff.mp ties
  rw [Bool.eq_iff_iff, tied_iff, tied_iff]
  constructor
  · rintro ⟨first, second⟩
    exact ⟨preorder.trans b memberB a memberA c memberC behind first,
      preorder.trans c memberC a memberA b memberB second before⟩
  · rintro ⟨first, second⟩
    exact ⟨preorder.trans a memberA b memberB c memberC before first,
      preorder.trans c memberC b memberB a memberA second behind⟩

/-- Elements that are tied with any element of the preorder keep their order, also where the
sort has not met that element yet. -/
theorem IsStableSort.filter_tied (sort : IsStableSort le items sorted)
    (preorder : IsPreorderOn le (item :: items)) :
    sorted.filter (tied le item) = items.filter (tied le item) := by
  have inside : ∀ b ∈ items, b ∈ item :: items := fun b member => List.mem_cons_of_mem item member
  by_cases met : ∃ a ∈ items, tied le item a = true
  · obtain ⟨a, member, ties⟩ := met
    have alike : ∀ b ∈ items, tied le item b = tied le a b := fun b memberB =>
      preorder.tied_congr List.mem_cons_self (inside a member) (inside b memberB) ties
    rw [List.filter_congr alike,
      List.filter_congr fun b memberB => alike b (sort.perm.mem_iff.mp memberB)]
    exact sort.stable a member
  · have apart : ∀ b ∈ items, ¬ tied le item b = true := fun b member ties => met ⟨b, member, ties⟩
    rw [List.filter_eq_nil_iff.mpr apart,
      List.filter_eq_nil_iff.mpr fun b member => apart b (sort.perm.mem_iff.mp member)]

theorem perm_insert (perm : (front ++ back).Perm items) :
    (front ++ item :: back).Perm (items ++ [item]) :=
  (List.perm_middle.trans (perm.cons item)).trans (List.perm_append_singleton item items).symm

/-- If an element is the last of its kind, the others of the kind stand in front of it. -/
theorem filter_insert {kind : α → Bool}
    (last : kind item = true → ∀ b ∈ back, ¬ kind b = true) :
    (front ++ item :: back).filter kind = (front ++ back).filter kind ++ [item].filter kind := by
  rw [List.filter_append, List.filter_append, List.filter_cons, List.filter_singleton]
  by_cases isKind : kind item = true
  · rw [List.filter_eq_nil_iff.mpr (last isKind), List.append_nil]
    simp [isKind]
  · simp [isKind]

/-- What the last of some ordered elements may come in front of, they all may. -/
theorem IsPreorderOn.le_of_last (preorder : IsPreorderOn le items)
    (inside : ∀ a ∈ front, a ∈ items) (member : item ∈ items)
    (ordered : front.Pairwise fun a b => le a b = true)
    (lower : ∀ last ∈ front.getLast?, le last item = true) : ∀ a ∈ front, le a item = true := by
  rcases List.eq_nil_or_concat front with rfl | ⟨rest, last, rfl⟩
  · exact nofun
  rw [List.concat_eq_append] at *
  have next : le last item = true := lower last List.getLast?_concat
  intro a inFront
  rcases List.mem_append.mp inFront with earlier | final
  · have ascends := (List.pairwise_append.mp ordered).2.2 a earlier last List.mem_cons_self
    have inLast := inside last (List.mem_append_right rest List.mem_cons_self)
    exact preorder.trans a (inside a inFront) last inLast item member ascends next
  · rw [List.mem_singleton.mp final]
    exact next

/-- A further element goes behind those that it is not less than. -/
theorem IsStableSort.insert (sort : IsStableSort le items (front ++ back))
    (preorder : IsPreorderOn le (item :: items))
    (lower : ∀ last ∈ front.getLast?, le last item = true)
    (upper : ∀ b ∈ back, le b item = false) :
    IsStableSort le (items ++ [item]) (front ++ item :: back) := by
  have inside : ∀ b ∈ front ++ back, b ∈ item :: items := fun b member =>
    List.mem_cons_of_mem item (sort.perm.mem_iff.mp member)
  have inFront : ∀ b ∈ front, b ∈ item :: items := fun b member =>
    inside b (List.mem_append_left back member)
  have inBack : ∀ b ∈ back, b ∈ item :: items := fun b member =>
    inside b (List.mem_append_right front member)
  obtain ⟨orderedFront, orderedBack, across⟩ := List.pairwise_append.mp sort.ordered
  have above : ∀ b ∈ back, le item b = true := by
    intro b member
    rcases preorder.total item List.mem_cons_self b (inBack b member) with before | behind
    · exact before
    · rw [upper b member] at behind
      cases behind
  have below : ∀ a ∈ front, le a item = true :=
    preorder.le_of_last inFront List.mem_cons_self orderedFront lower
  refine ⟨perm_insert sort.perm, ?_, fun a member => ?_⟩
  · refine List.pairwise_append.mpr ⟨orderedFront, List.pairwise_cons.mpr ⟨above, orderedBack⟩, ?_⟩
    intro a memberA b memberB
    rcases List.mem_cons.mp memberB with rfl | memberB
    · exact below a memberA
    · exact across a memberA b memberB
  · have known : a ∈ item :: items := (List.perm_append_singleton item items).mem_iff.mp member
    have kept : (front ++ back).filter (tied le a) = items.filter (tied le a) := by
      rcases List.mem_cons.mp known with rfl | old
      · exact sort.filter_tied preorder
      · exact sort.stable a old
    rw [filter_insert, kept, List.filter_append]
    -- What is tied with `a` behind the new element would be tied with the new element.
    intro ties b memberB tiesB
    rw [preorder.tied_congr known List.mem_cons_self (inBack b memberB) ties] at tiesB
    have before := (tied_iff.mp tiesB).2
    rw [upper b memberB] at before
    cases before

/-- Sorting by merging is a stable sort where the relation is a total preorder. -/
theorem IsPreorderOn.isStableSort_mergeSort (preorder : IsPreorderOn le items) :
    IsStableSort le items (items.mergeSort le) := by
  let leOn (a b : { a // a ∈ items }) : Bool := le a.1 b.1
  have restricted : items.mergeSort le = (items.attach.mergeSort leOn).map Subtype.val := by
    rw [List.map_mergeSort (r := leOn) (s := le) (f := Subtype.val) (fun _ _ _ _ => rfl),
      List.attach_map_subtype_val]
  have trans : ∀ a b c, leOn a b = true → leOn b c = true → leOn a c = true := fun a b c =>
    preorder.trans a.1 a.2 b.1 b.2 c.1 c.2
  have total : ∀ a b, (leOn a b || leOn b a) = true := fun a b =>
    Bool.or_eq_true_iff.mpr (preorder.total a.1 a.2 b.1 b.2)
  refine ⟨List.mergeSort_perm items le, ?_, fun a member => ?_⟩
  · rw [restricted]
    exact List.pairwise_map.mpr (List.pairwise_mergeSort trans total items.attach)
  · -- The tied elements are in order, so they are found in this order after sorting.
    have ascending : (items.attach.filter fun b => tied le a b.1).Pairwise
        fun b c => leOn b c = true := by
      apply List.pairwise_of_forall_mem_list
      intro b memberB c memberC
      have tiesB := (tied_iff.mp (List.mem_filter.mp memberB).2).2
      have tiesC := (tied_iff.mp (List.mem_filter.mp memberC).2).1
      exact preorder.trans b.1 b.2 a member c.1 c.2 tiesB tiesC
    have found := List.sublist_mergeSort trans total ascending List.filter_sublist
    have selected : (items.attach.filter fun b => tied le a b.1).map Subtype.val =
        items.filter (tied le a) := by
      conv_rhs => rw [← List.attach_map_subtype_val items, List.filter_map]
      rfl
    have inOrder : (items.filter (tied le a)).Sublist (items.mergeSort le) := by
      rw [restricted, ← selected]
      exact found.map Subtype.val
    have sublist := inOrder.filter (tied le a)
    rw [List.filter_filter] at sublist
    simp only [Bool.and_self] at sublist
    refine (sublist.eq_of_length ?_).symm
    exact ((List.mergeSort_perm items le).filter (tied le a)).length_eq.symm

end Stability

/-! ## Questions and answers -/

/-- What a comparator was asked, and its answer as a number. -/
structure Comparison where
  first : Value
  second : Value
  answer : Float

namespace Comparison

/-- The sign of the answer tells how a relation orders the two values.  An answer that is not
defined has no sign. -/
def Agrees (le : Value → Value → Bool) (comparison : Comparison) : Prop :=
  (comparison.answer < 0 ↔ le comparison.second comparison.first = false) ∧
    (0 < comparison.answer ↔ le comparison.first comparison.second = false)

variable {le : Value → Value → Bool} {a b : Value} {x : Float}

theorem Agrees.le_of_not_lt (agrees : Agrees le ⟨a, b, x⟩) (rises : ¬ x < 0) :
    le b a = true := by
  rw [← Bool.not_eq_false]
  exact fun falls => rises (agrees.1.mpr falls)

end Comparison

/-- Questions about the elements of a list that are asked one after another and answered by
numbers, each on the machine that the one before left behind. -/
inductive Questioned (ask : Value → Value → Run Value) (items : List Value) :
    Machine → List Comparison → Machine → Prop
  | done (machine : Machine) : Questioned ask items machine [] machine
  | next {before middle after : Machine} {a b answer : Value} {x : Float}
    {others : List Comparison} (memberA : a ∈ items) (memberB : b ∈ items)
    (answered : ask a b before = .ok answer middle) (counts : answer.toNumber = .ok x)
    (further : Questioned ask items middle others after) :
    Questioned ask items before (⟨a, b, x⟩ :: others) after

/-- A question has no number for an answer: asking fails, or the answer is not a number and
cannot be made one. -/
inductive Refused (ask : Value → Value → Run Value) (span : Span) (a b : Value)
    (before : Machine) : Halt → Machine → Prop
  | failed {halt : Halt} {after : Machine} (asked : ask a b before = .error halt after) :
    Refused ask span a b before halt after
  | uncountable {answer : Value} {cause : Cause} {after : Machine}
    (asked : ask a b before = .ok answer after) (refused : answer.toNumber = .error cause) :
    Refused ask span a b before (.fault ⟨cause, span⟩) after

/-- The first question without an answer, after others that were answered. -/
inductive Abandoned (ask : Value → Value → Run Value) (span : Span) (items : List Value)
    (before : Machine) : Halt → Machine → Prop
  | refused {middle after : Machine} {earlier : List Comparison} {a b : Value} {halt : Halt}
    (answered : Questioned ask items before earlier middle) (memberA : a ∈ items)
    (memberB : b ∈ items) (refused : Refused ask span a b middle halt after) :
    Abandoned ask span items before halt after

section Questions

variable {ask : Value → Value → Run Value} {span : Span} {items more : List Value}
  {before middle after : Machine} {earlier further : List Comparison} {halt : Halt}

namespace Questioned

theorem append (first : Questioned ask items before earlier middle)
    (second : Questioned ask items middle further after) :
    Questioned ask items before (earlier ++ further) after := by
  induction first with
  | done => exact second
  | next memberA memberB answered counts _ ih =>
      exact .next memberA memberB answered counts (ih second)

theorem mono (questioned : Questioned ask items before earlier after)
    (inside : ∀ a ∈ items, a ∈ more) : Questioned ask more before earlier after := by
  induction questioned with
  | done machine => exact .done machine
  | next memberA memberB answered counts _ ih =>
      exact .next (inside _ memberA) (inside _ memberB) answered counts ih

/-- A comparator that changes nothing and always gives the same answer. -/
theorem of_constant {log : List Comparison} {x : Float}
    (constant : ∀ a b, ask a b before = .ok (.number x) before)
    (questioned : Questioned ask items before log after) :
    after = before ∧ ∀ comparison ∈ log, comparison.answer = x := by
  generalize start : before = machine at questioned
  induction questioned with
  | done => exact ⟨rfl, nofun⟩
  | next _ _ answered counts _ ih =>
      subst start
      rw [constant] at answered
      cases answered
      cases counts
      obtain ⟨unmoved, same⟩ := ih rfl
      exact ⟨unmoved, List.forall_mem_cons.mpr ⟨rfl, same⟩⟩

end Questioned

namespace Abandoned

theorem later (first : Questioned ask items before earlier middle)
    (abandoned : Abandoned ask span items middle halt after) :
    Abandoned ask span items before halt after := by
  cases abandoned with
  | refused answered memberA memberB refused =>
      exact .refused (first.append answered) memberA memberB refused

theorem mono (abandoned : Abandoned ask span items before halt after)
    (inside : ∀ a ∈ items, a ∈ more) : Abandoned ask span more before halt after := by
  cases abandoned with
  | refused answered memberA memberB refused =>
      exact .refused (answered.mono inside) (inside _ memberA) (inside _ memberB) refused

theorem not_of_constant {x : Float} (constant : ∀ a b, ask a b before = .ok (.number x) before) :
    ¬ Abandoned ask span items before halt after := by
  rintro ⟨answered, -, -, refused⟩
  rw [(answered.of_constant constant).1] at refused
  cases refused with
  | failed asked =>
      rw [constant] at asked
      cases asked
  | uncountable asked refused =>
      rw [constant] at asked
      cases asked
      cases refused

end Abandoned

/-! ## The sort by a comparator -/

namespace Elements

/-- The comparison that a question decides: the first value comes first if the answer is
below zero. -/
def lessBy (ask : Value → Value → Run Value) (span : Span) (a b : Value) : Run Bool := do
  let answer ← ask a b
  let x ← Run.lift span answer.toNumber
  pure (decide (x < 0))

/-- A comparison asks one question. -/
theorem lessBy_cases (ask : Value → Value → Run Value) (span : Span) {a b : Value}
    (memberA : a ∈ items) (memberB : b ∈ items) (machine : Machine) :
    (∃ x after, Questioned ask items machine [⟨a, b, x⟩] after ∧
      lessBy ask span a b machine = .ok (decide (x < 0)) after) ∨
    ∃ halt after, Abandoned ask span items machine halt after ∧
      lessBy ask span a b machine = .error halt after := by
  cases asked : ask a b machine with
  | error halt after =>
      refine .inr ⟨halt, after, .refused (.done machine) memberA memberB (.failed asked), ?_⟩
      simp only [lessBy, Bind.bind, EStateM.bind, asked]
  | ok answer after =>
      cases counts : answer.toNumber with
      | ok x =>
          refine .inl ⟨x, after, .next memberA memberB asked counts (.done after), ?_⟩
          simp only [lessBy, Bind.bind, EStateM.bind, asked, counts]
          rfl
      | error cause =>
          have refused : Refused ask span a b machine _ after := .uncountable asked counts
          refine .inr ⟨_, after, .refused (.done machine) memberA memberB refused, ?_⟩
          simp only [lessBy, Bind.bind, EStateM.bind, asked, counts]
          rfl

/-- The element passed those in front, and the first one behind it stopped it. -/
structure IsPlaced (log : List Comparison) (item : Value) (passed stopped : List Value) :
    Prop where
  passes : ∀ other ∈ passed, ∃ x, ⟨item, other, x⟩ ∈ log ∧ x < 0
  stops : ∀ other ∈ stopped.head?, ∃ x, ⟨item, other, x⟩ ∈ log ∧ ¬ x < 0

theorem IsPlaced.isStableSort {le : Value → Value → Bool} {log : List Comparison} {item : Value}
    {passed stopped : List Value} (placed : IsPlaced log item passed stopped)
    (sort : IsStableSort le items (stopped.reverse ++ passed.reverse))
    (preorder : IsPreorderOn le (item :: items))
    (agrees : ∀ comparison ∈ log, comparison.Agrees le) :
    IsStableSort le (items ++ [item]) (stopped.reverse ++ item :: passed.reverse) := by
  refine sort.insert preorder (fun a first => ?_) fun b behind => ?_
  · rw [List.getLast?_reverse] at first
    obtain ⟨x, logged, rises⟩ := placed.stops a first
    exact (agrees _ logged).le_of_not_lt rises
  · obtain ⟨x, logged, falls⟩ := placed.passes b (List.mem_reverse.mp behind)
    exact (agrees _ logged).1.mp falls

/-- An insertion finds a place by its answers, or one of its questions is not answered. -/
theorem insertM_cases (ask : Value → Value → Run Value) (span : Span) {item : Value}
    (member : item ∈ items) : ∀ (others : List Value), (∀ other ∈ others, other ∈ items) →
      ∀ machine,
      (∃ log after passed stopped, others = passed ++ stopped ∧
        Questioned ask items machine log after ∧ IsPlaced log item passed stopped ∧
        insertM (lessBy ask span) item others machine = .ok (passed ++ item :: stopped) after) ∨
      ∃ halt after, Abandoned ask span items machine halt after ∧
        insertM (lessBy ask span) item others machine = .error halt after
  | [], _, machine =>
      .inl ⟨[], machine, [], [], rfl, .done machine, ⟨nofun, nofun⟩, rfl⟩
  | other :: rest, inside, machine => by
      have memberOther := inside other List.mem_cons_self
      rcases lessBy_cases ask span member memberOther machine with
        ⟨x, middle, asked, less⟩ | ⟨halt, after, abandoned, less⟩
      · by_cases below : x < 0
        · have insideRest : ∀ a ∈ rest, a ∈ items := fun a inRest =>
            inside a (List.mem_cons_of_mem other inRest)
          rcases insertM_cases ask span member rest insideRest middle with
            ⟨log, after, passed, stopped, parts, questioned, placed, result⟩ |
            ⟨halt, after, abandoned, result⟩
          · refine .inl ⟨⟨item, other, x⟩ :: log, after, other :: passed, stopped, ?_, ?_, ?_, ?_⟩
            · rw [parts, List.cons_append]
            · exact asked.append questioned
            · refine ⟨fun a inPassed => ?_, fun a first => ?_⟩
              · rcases List.mem_cons.mp inPassed with rfl | inPassed
                · exact ⟨x, List.mem_cons_self, below⟩
                · obtain ⟨y, logged, less⟩ := placed.passes a inPassed
                  exact ⟨y, List.mem_cons_of_mem _ logged, less⟩
              · obtain ⟨y, logged, stops⟩ := placed.stops a first
                exact ⟨y, List.mem_cons_of_mem _ logged, stops⟩
            · simp only [insertM, Bind.bind, EStateM.bind, less, below, decide_true, if_true,
                result]
              rfl
          · refine .inr ⟨halt, after, abandoned.later asked, ?_⟩
            simp only [insertM, Bind.bind, EStateM.bind, less, below, decide_true, if_true, result]
        · refine .inl ⟨_, middle, [], other :: rest, rfl, asked, ⟨nofun, fun a first => ?_⟩, ?_⟩
          · cases first
            exact ⟨x, List.mem_cons_self, below⟩
          · simp only [insertM, Bind.bind, EStateM.bind, less, below]
            rfl
      · refine .inr ⟨halt, after, abandoned, ?_⟩
        simp only [insertM, Bind.bind, EStateM.bind, less]

/-- A sort answers all its questions, or stops at the first one that has no answer. -/
theorem sortedByM_cases (ask : Value → Value → Run Value) (span : Span) (items : List Value)
    (machine : Machine) :
    (∃ log after sorted, Questioned ask items machine log after ∧ sorted.Perm items ∧
      (∀ le, IsPreorderOn le items → (∀ comparison ∈ log, comparison.Agrees le) →
        IsStableSort le items sorted) ∧
      sortedByM (lessBy ask span) items machine = .ok sorted after) ∨
    ∃ halt after, Abandoned ask span items machine halt after ∧
      sortedByM (lessBy ask span) items machine = .error halt after := by
  -- The elements that were inserted so far are a stable sort of those in front of the next one.
  induction items using List.reverseRecOn with
  | nil =>
      exact .inl ⟨[], machine, [], .done machine, .nil, fun _ _ _ => ⟨.nil, .nil, nofun⟩, rfl⟩
  | append_singleton items item ih =>
      have inside : ∀ a ∈ items, a ∈ items ++ [item] := fun a member =>
        List.mem_append_left [item] member
      have member : item ∈ items ++ [item] := List.mem_append_right items List.mem_cons_self
      have inserts : sortedByM (lessBy ask span) (items ++ [item]) machine =
          (do
            let sorted ← sortedByM (lessBy ask span) items
            return (← insertM (lessBy ask span) item sorted.reverse).reverse : Run _) machine := by
        simp [sortedByM]
      rw [inserts]
      rcases ih with ⟨log, middle, sorted, asked, perm, stable, sort⟩ |
        ⟨halt, after, abandoned, sort⟩
      · have known : ∀ a ∈ sorted.reverse, a ∈ items ++ [item] := fun a inSorted =>
          inside a (perm.mem_iff.mp (List.mem_reverse.mp inSorted))
        rcases insertM_cases ask span member sorted.reverse known middle with
          ⟨further, after, passed, stopped, parts, askedFurther, placed, insertion⟩ |
          ⟨halt, after, abandoned, insertion⟩
        · obtain rfl : sorted = stopped.reverse ++ passed.reverse := by
            rw [← List.reverse_append, ← parts, List.reverse_reverse]
          refine .inl ⟨log ++ further, after, stopped.reverse ++ item :: passed.reverse,
            (asked.mono inside).append askedFurther, perm_insert perm, ?_, ?_⟩
          · intro le preorder agrees
            have earlier := stable le (preorder.subset inside) fun comparison logged =>
              agrees comparison (List.mem_append_left further logged)
            refine placed.isStableSort earlier (preorder.subset ?_) fun comparison logged =>
              agrees comparison (List.mem_append_right log logged)
            exact List.forall_mem_cons.mpr ⟨member, inside⟩
          · simp only [Bind.bind, EStateM.bind, sort, insertion]
            simp [Pure.pure, EStateM.pure]
        · refine .inr ⟨halt, after, abandoned.later (asked.mono inside), ?_⟩
          simp only [Bind.bind, EStateM.bind, sort, insertion]
      · refine .inr ⟨halt, after, abandoned.mono inside, ?_⟩
        simp only [Bind.bind, EStateM.bind, sort]

end Elements

end Questions

/-! ## What is written -/

/-- The machine after a list was written, with nothing else changed. -/
def Machine.withList (machine : Machine) (ref : ListRef) (items : List Value) : Machine :=
  { machine with heap := machine.heap.setList ref items.toArray }

theorem Machine.list_withList {machine : Machine} {ref : ListRef} {items : List Value}
    (fits : ref.index < machine.heap.lists.size ∨ items = []) :
    (machine.withList ref items).heap.list ref = items.toArray := by
  by_cases allocated : ref.index < machine.heap.lists.size
  · exact Heap.list_modifyList_self machine.heap ref _ allocated
  · obtain rfl := fits.resolve_left allocated
    simp [withList, Heap.setList, Heap.modifyList, Heap.list, allocated]

/-- How a sort by a comparator ends.  Either all questions are answered, and then the list is
written on the machine that the last one left behind; or a question is not answered, and the
sort ends like this question, on the machine that it left behind. -/
inductive SortEnds (ask : Value → Value → Run Value) (span : Span) (ref : ListRef)
    (before : Machine) : EStateM.Result Halt Machine Value → Prop
  | sorted {log : List Comparison} {middle : Machine} {sorted : List Value}
    (questioned : Questioned ask (before.heap.list ref).toList before log middle)
    (perm : sorted.Perm (before.heap.list ref).toList)
    (stable : ∀ le, IsPreorderOn le (before.heap.list ref).toList →
      (∀ comparison ∈ log, comparison.Agrees le) →
        IsStableSort le (before.heap.list ref).toList sorted)
    (content : (middle.withList ref sorted).heap.list ref = sorted.toArray) :
    SortEnds ask span ref before (.ok (.list ref) (middle.withList ref sorted))
  | abandoned {halt : Halt} {after : Machine}
    (abandoned : Abandoned ask span (before.heap.list ref).toList before halt after) :
    SortEnds ask span ref before (.error halt after)

namespace Evaluator

/-- Ask a comparator about two values. -/
def comparing (ev : Evaluator) (comparator : Value) (scope : FrameRef) (span : Span)
    (a b : Value) : Run Value :=
  ev.call comparator none [a, b] scope span

theorem call_size_lists_le {fuel : Nat} {callee answer : Value} {receiver : Option Value}
    {args : List Value} {scope : FrameRef} {span : Span} {machine after : Machine}
    (called : (ofFuel fuel).call callee receiver args scope span machine = .ok answer after) :
    machine.heap.lists.size ≤ after.heap.lists.size := by
  let law := Law.unrestricted machine.heap fun _ _ => True
  have covers := law.covers_ofFuel trivial (fun _ _ _ _ => trivial) fuel
  have evolves : machine.Evolves law.permit
      (((ofFuel fuel).call callee receiver args scope span).leaves machine) :=
    Law.evolves (Law.relates_call covers) ⟨.refl, trivial⟩
  rw [Run.leaves, called] at evolves
  exact evolves.path.size_lists_le

/-- The comparator may change lists, but it takes none away. -/
theorem size_lists_le_of_questioned {fuel : Nat} {comparator : Value} {scope : FrameRef}
    {span : Span} {items : List Value} {log : List Comparison} {before after : Machine}
    (questioned :
      Questioned ((ofFuel fuel).comparing comparator scope span) items before log after) :
    before.heap.lists.size ≤ after.heap.lists.size := by
  induction questioned with
  | done => exact Nat.le_refl _
  | next _ _ answered _ _ ih => exact Nat.le_trans (call_size_lists_le answered) ih

theorem toList_list_of_size_le {heap : Heap} {ref : ListRef}
    (outside : ¬ ref.index < heap.lists.size) : (heap.list ref).toList = [] := by
  simp [Heap.list, outside]

/-- A permutation of the content of a list fits into it for good. -/
theorem fits_of_perm {before middle : Machine} {ref : ListRef} {sorted : List Value}
    (grows : before.heap.lists.size ≤ middle.heap.lists.size)
    (perm : sorted.Perm (before.heap.list ref).toList) :
    ref.index < middle.heap.lists.size ∨ sorted = [] := by
  by_cases allocated : ref.index < before.heap.lists.size
  · exact .inl (Nat.lt_of_lt_of_le allocated grows)
  · rw [toList_list_of_size_le allocated] at perm
    exact .inr perm.eq_nil

/-- What a sort does, for any comparator and whatever the comparator does. -/
theorem sortList_keeps_elements (fuel : Nat) (ref : ListRef) (args : List Value)
    (scope : FrameRef) (span : Span) (machine : Machine) :
    let items := (machine.heap.list ref).toList
    let result := (ofFuel fuel).sortList ref args scope span machine
    (∀ comparator, args.head? = some (.function comparator) →
      SortEnds ((ofFuel fuel).comparing (.function comparator) scope span) span ref machine
        result) ∧
    ((args.head? = none ∨ args.head? = some .null) →
      ∃ sorted, result = .ok (.list ref) (machine.withList ref sorted) ∧
        (machine.withList ref sorted).heap.list ref = sorted.toArray ∧ sorted.Perm items ∧
        (IsPreorderOn (Value.mayPrecede machine.heap) items →
          IsStableSort (Value.mayPrecede machine.heap) items sorted)) ∧
    (∀ other, args.head? = some other → other.type ≠ .function → other.type ≠ .null →
      result = .error (.fault ⟨.comparatorExpected other.type, span⟩) machine) := by
  intro items result
  refine ⟨fun comparator first => ?_, fun absent => ?_, fun other first isOther isSome => ?_⟩
  · let ask := (ofFuel fuel).comparing (.function comparator) scope span
    have unfolded : result = (do
        let sorted ← Elements.sortedByM (Elements.lessBy ask span) items
        Run.setList ref sorted.toArray
        pure (.list ref) : Run Value) machine := by
      show (ofFuel fuel).sortList ref args scope span machine = _
      unfold sortList
      rw [first]
      rfl
    rw [unfolded]
    rcases Elements.sortedByM_cases ask span items machine with
      ⟨log, middle, sorted, questioned, perm, stable, sort⟩ | ⟨halt, after, abandoned, sort⟩
    · have fits := fits_of_perm (size_lists_le_of_questioned questioned) perm
      have ends : SortEnds ask span ref machine _ :=
        .sorted questioned perm stable (Machine.list_withList fits)
      simp only [Bind.bind, EStateM.bind, sort]
      exact ends
    · simpa only [Bind.bind, EStateM.bind, sort] using SortEnds.abandoned abandoned
  · have perm := List.mergeSort_perm items (Value.mayPrecede machine.heap)
    refine ⟨_, ?_, Machine.list_withList (fits_of_perm (Nat.le_refl _) perm), perm, ?_⟩
    · show (ofFuel fuel).sortList ref args scope span machine = _
      unfold sortList
      rcases absent with absent | absent <;>
        · rw [absent]
          rfl
    · exact IsPreorderOn.isStableSort_mergeSort
  · show (ofFuel fuel).sortList ref args scope span machine = _
    unfold sortList
    rw [first]
    cases other with
    | function => exact absurd rfl isOther
    | null => exact absurd rfl isSome
    | _ => rfl

/-- A list of two numbers, and a comparator. -/
def pairWith (comparator : Function) : Machine :=
  { Machine.bare {} none with
    heap := { frames := #[{}], lists := #[#[.number 2, .number 1]], functions := #[comparator] } }

/-- Without an argument, or with a comparator that always answers zero, no number moves. -/
theorem sortList_keeps_elements_indifferent :
    let machine := pairWith (.ofBuiltin (.number .abs 0))
    (∃ after, (ofFuel 5).sortList ⟨0⟩ [.function ⟨0⟩] ⟨0⟩ {} machine = .ok (.list ⟨0⟩) after ∧
      (after.heap.list ⟨0⟩).toList = [.number 2, .number 1]) ∧
    ∃ sorted, IsStableSort (Value.mayPrecede machine.heap) [.number 2, .number 1] sorted ∧
      (ofFuel 5).sortList ⟨0⟩ [] ⟨0⟩ {} machine =
        .ok (.list ⟨0⟩) (machine.withList ⟨0⟩ sorted) := by
  intro machine
  constructor
  · have ends := (sortList_keeps_elements 5 ⟨0⟩ [.function ⟨0⟩] ⟨0⟩ {} machine).1 ⟨0⟩ rfl
    have zero : ∀ a b, (ofFuel 5).comparing (.function ⟨0⟩) ⟨0⟩ {} a b machine =
        .ok (.number (Float.abs 0)) machine := fun _ _ => rfl
    generalize (ofFuel 5).sortList ⟨0⟩ [.function ⟨0⟩] ⟨0⟩ {} machine = result at ends
    cases ends with
    | @sorted log middle sorted questioned perm stable content =>
        refine ⟨_, rfl, ?_⟩
        rw [content]
        have indifferent := stable (fun _ _ => true)
          ⟨fun _ _ _ _ => .inl rfl, fun _ _ _ _ _ _ _ _ => rfl⟩
        have same := (indifferent fun comparison logged => ?_).stable (.number 2) List.mem_cons_self
        · have all (items : List Value) :
              items.filter (tied (fun _ _ => true) (.number 2)) = items :=
            List.filter_eq_self.mpr fun _ _ => rfl
          rwa [all, all] at same
        · have sign := (questioned.of_constant zero).2 comparison logged
          rw [Comparison.Agrees, sign]
          exact ⟨iff_of_false (by decide +kernel) nofun, iff_of_false (by decide +kernel) nofun⟩
    | abandoned abandoned => exact (Abandoned.not_of_constant zero abandoned).elim
  · obtain ⟨sorted, result, -, -, stable⟩ :=
      (sortList_keeps_elements 5 ⟨0⟩ [] ⟨0⟩ {} machine).2.1 (.inl rfl)
    refine ⟨sorted, stable ⟨fun a _ b _ => Value.mayPrecede_total machine.heap a b, ?_⟩, result⟩
    intro a memberA b memberB c memberC first second
    by_contra backwards
    refine Value.not_clashes_of_alike (.inl fun item member => ?_) memberA memberB memberC
      (Value.clashes_of_circular first second backwards)
    rcases List.mem_cons.mp member with rfl | member
    · exact ⟨2, rfl, by decide +kernel⟩
    · exact ⟨1, List.mem_singleton.mp member, by decide +kernel⟩

/-- An answer that is a truth value and no number is taken for a number. -/
theorem sortList_accepts_truth :
    let truth : FunctionDecl := ⟨none, [], [{ node := .return (some { node := .bool true }) }], {}⟩
    let machine := pairWith (.ofDecl truth ⟨0⟩)
    (∃ after, (ofFuel 5).comparing (.function ⟨0⟩) ⟨0⟩ {} (.number 1) (.number 2) machine =
      .ok (.bool true) after) ∧
    (Value.bool true).type ≠ .number ∧
    ∃ after, (ofFuel 5).sortList ⟨0⟩ [.function ⟨0⟩] ⟨0⟩ {} machine = .ok (.list ⟨0⟩) after :=
  ⟨⟨_, rfl⟩, nofun, ⟨_, rfl⟩⟩

end Evaluator

end Hati
