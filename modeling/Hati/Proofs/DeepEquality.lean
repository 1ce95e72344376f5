import Hati.Equality
import Mathlib

namespace Hati

/-!
# Loose equality is deep equality

Two lists are deeply equal if they have equally many elements and these are deeply
equal in turn.  On cyclic lists that does not settle anything by itself, and deep
equality is the greatest relation of this kind: whatever no comparison of elements
can tell apart is equal.

The comparison does not look for relations.  It goes down the two lists side by side
and takes a pair that is already being compared for equal.  Two facts make that
right.  Only finitely many pairs of lists can be open at once, so every comparison
comes to an end.  And a mismatch is never overlooked: on a shortest path to a
mismatch no pair occurs twice, since the later occurrence would have a shorter path.
-/

namespace Value

/-! ## Deep equality -/

/-- Equality of two values that are not both lists. -/
def plainlyEquals (heap : Heap) : Value → Value → Bool
  | null, null => true
  | number x, number y => x == y
  | text x, text y => x == y
  | bool x, bool y => x == y
  | number x, text s => numberEqualsText x s
  | text s, number x => numberEqualsText x s
  | function x, function y => x == y
  | object x, object y => x == y
  | «class» x, «class» y => x == y
  | a, b => a.toText heap == b.toText heap

/-- What deep equality demands of two values: of two lists that they are the same or
have elements that are related one by one, of other values that they are equal. -/
def Matches (heap : Heap) (related : Value → Value → Prop) : Value → Value → Prop
  | list x, list y => x = y ∨ List.Forall₂ related (heap.list x).toList (heap.list y).toList
  | a, b => plainlyEquals heap a b = true

/-- Whether both values are lists. -/
def areLists : Value → Value → Bool
  | list _, list _ => true
  | _, _ => false

/-- A path of positions that leads into two values and ends at a mismatch, without
ever entering a list together with itself. -/
inductive Differs (heap : Heap) : List Nat → Value → Value → Prop where
  | plain {a b : Value} (notLists : areLists a b = false)
    (unequal : plainlyEquals heap a b = false) : Differs heap [] a b
  | size {x y : ListRef} (distinct : x ≠ y) (unequal : (heap.list x).size ≠ (heap.list y).size) :
    Differs heap [] (list x) (list y)
  | element {x y : ListRef} {position : Nat} {left right : Value} {path : List Nat}
    (distinct : x ≠ y) (inLeft : (heap.list x)[position]? = some left)
    (inRight : (heap.list y)[position]? = some right) (further : Differs heap path left right) :
    Differs heap (position :: path) (list x) (list y)

/-- Elements that stand side by side in two lists. -/
theorem mem_zip_toList {first second : Array Value} {left right : Value} :
    (left, right) ∈ first.toList.zip second.toList ↔
      ∃ position : Nat, first[position]? = some left ∧ second[position]? = some right := by
  simp only [List.mem_iff_getElem?, List.getElem?_zip_eq_some, Array.getElem?_toList]

theorem areLists_swap (a b : Value) : areLists a b = areLists b a := by
  cases a <;> cases b <;> rfl

theorem plainlyEquals_swap (heap : Heap) (a b : Value) :
    plainlyEquals heap a b = plainlyEquals heap b a := by
  cases a <;> cases b <;> simp only [plainlyEquals] <;> exact BEq.comm

theorem matches_plain {heap : Heap} {related : Value → Value → Prop} {a b : Value}
    (notLists : areLists a b = false) :
    Matches heap related a b ↔ plainlyEquals heap a b = true := by
  cases a <;> cases b <;> first | rfl | cases notLists

theorem exists_lists_of_areLists {a b : Value} (areLists : areLists a b = true) :
    ∃ x y, a = list x ∧ b = list y := by
  cases a with
  | list x =>
      cases b with
      | list y => exact ⟨x, y, rfl, rfl⟩
      | _ => cases areLists
  | _ => cases areLists

/-! ## One step of the comparison -/

theorem looselyEqualsFrom_plain {heap : Heap} {a b : Value} (notLists : areLists a b = false)
    (fuel : Nat) (opened : List (ListRef × ListRef)) :
    looselyEqualsFrom heap (fuel + 1) opened a b = plainlyEquals heap a b := by
  cases a <;> cases b <;> first | rfl | cases notLists

/-- Two lists are told apart if they are neither the same nor being compared already,
and if their sizes or their elements at some position are told apart. -/
theorem looselyEqualsFrom_lists {heap : Heap} {fuel : Nat} {opened : List (ListRef × ListRef)}
    {x y : ListRef} :
    looselyEqualsFrom heap (fuel + 1) opened (list x) (list y) = false ↔
      x ≠ y ∧ (x, y) ∉ opened ∧ ((heap.list x).size ≠ (heap.list y).size ∨
        ∃ (position : Nat) (left right : Value), (heap.list x)[position]? = some left ∧
          (heap.list y)[position]? = some right ∧
          looselyEqualsFrom heap fuel ((x, y) :: opened) left right = false) := by
  have elements : (((heap.list x).toList.zip (heap.list y).toList).all fun pair =>
      looselyEqualsFrom heap fuel ((x, y) :: opened) pair.1 pair.2) = false ↔
      ∃ (position : Nat) (left right : Value), (heap.list x)[position]? = some left ∧
        (heap.list y)[position]? = some right ∧
        looselyEqualsFrom heap fuel ((x, y) :: opened) left right = false := by
    simp only [List.all_eq_false, Prod.exists, mem_zip_toList, Bool.not_eq_true]
    constructor
    · rintro ⟨left, right, ⟨position, inLeft, inRight⟩, differ⟩
      exact ⟨position, left, right, inLeft, inRight, differ⟩
    · rintro ⟨position, left, right, inLeft, inRight, differ⟩
      exact ⟨left, right, ⟨position, inLeft, inRight⟩, differ⟩
  rw [looselyEqualsFrom, ← elements]
  by_cases same : x = y
  · simp [same]
  · by_cases known : (x, y) ∈ opened
    · simp [known]
    · simp only [beq_false_of_ne same, List.contains_iff_mem.not.mpr known]
      simp [same, known, imp_iff_not_or]

/-! ## The comparison comes to an end -/

/-- The pairs of lists that are not being compared. -/
def unopened (heap : Heap) (opened : List (ListRef × ListRef)) : Finset (Nat × Nat) :=
  (Finset.range heap.lists.size ×ˢ Finset.range heap.lists.size) \
    (opened.map fun pair => (pair.1.index, pair.2.index)).toFinset

theorem lt_size_of_element {heap : Heap} {ref : ListRef} {position : Nat} {value : Value}
    (element : (heap.list ref)[position]? = some value) : ref.index < heap.lists.size := by
  by_contra outside
  simp [Heap.list, Array.getD, outside] at element

/-- Opening a pair of lists that have elements leaves fewer pairs to open. -/
theorem card_unopened_lt {heap : Heap} {opened : List (ListRef × ListRef)} {x y : ListRef}
    (fresh : (x, y) ∉ opened) (inLeft : x.index < heap.lists.size)
    (inRight : y.index < heap.lists.size) :
    (unopened heap ((x, y) :: opened)).card < (unopened heap opened).card := by
  have erased : unopened heap ((x, y) :: opened) =
      (unopened heap opened).erase (x.index, y.index) := by
    simp [unopened, Finset.sdiff_insert]
  have member : (x.index, y.index) ∈ unopened heap opened := by
    simp only [unopened, Finset.mem_sdiff, Finset.mem_product, Finset.mem_range, inLeft, inRight,
      List.mem_toFinset, List.mem_map, and_self, true_and]
    rintro ⟨⟨⟨left⟩, ⟨right⟩⟩, isOpen, same⟩
    simp only [Prod.mk.injEq] at same
    rcases same with ⟨rfl, rfl⟩
    exact fresh isOpen
  rw [erased]
  exact Finset.card_erase_lt_of_mem member

/-- A comparison that asks for others: the pairs that are open, and the two values. -/
structure Comparison where
  opened : List (ListRef × ListRef)
  left : Value
  right : Value

/-- The comparisons that a comparison asks for. -/
inductive Enters (heap : Heap) : Comparison → Comparison → Prop where
  | element {opened : List (ListRef × ListRef)} {x y : ListRef} {position : Nat}
    {left right : Value} (distinct : x ≠ y) (fresh : (x, y) ∉ opened)
    (inLeft : (heap.list x)[position]? = some left)
    (inRight : (heap.list y)[position]? = some right) :
    Enters heap ⟨opened, list x, list y⟩ ⟨(x, y) :: opened, left, right⟩

/-- No comparison asks for others without end. -/
theorem wellFounded_enters (heap : Heap) :
    WellFounded fun inner outer => Enters heap outer inner := by
  refine Subrelation.wf ?_ (measure fun stage => (unopened heap stage.opened).card).wf
  rintro _ _ ⟨distinct, fresh, inLeft, inRight⟩
  exact card_unopened_lt fresh (lt_size_of_element inLeft) (lt_size_of_element inRight)

/-- Fuel for all pairs that are not open is enough, and more of it changes nothing. -/
theorem looselyEqualsFrom_add (heap : Heap) (fuel : Nat) :
    ∀ opened a b more, (unopened heap opened).card < fuel →
      (looselyEqualsFrom heap (fuel + more) opened a b = false ↔
        looselyEqualsFrom heap fuel opened a b = false) := by
  induction fuel with
  | zero =>
      intro opened a b more enough
      exact absurd enough (Nat.not_lt_zero _)
  | succ fuel ih =>
      intro opened a b more enough
      rw [Nat.succ_add]
      cases kind : areLists a b with
      | false => rw [looselyEqualsFrom_plain kind, looselyEqualsFrom_plain kind]
      | true =>
          rcases exists_lists_of_areLists kind with ⟨x, y, rfl, rfl⟩
          rw [looselyEqualsFrom_lists, looselyEqualsFrom_lists]
          refine and_congr_right fun distinct => and_congr_right fun fresh => or_congr_right ?_
          -- Two lists with elements stand in the heap, so opening them uses up a pair.
          refine exists_congr fun position => exists_congr fun left => exists_congr fun right =>
            and_congr_right fun inLeft => and_congr_right fun inRight => ih _ _ _ _ ?_
          have fewer := card_unopened_lt fresh (lt_size_of_element inLeft)
            (lt_size_of_element inRight)
          omega

/-- The answer does not depend on how much fuel there is beyond the number of pairs. -/
theorem looselyEqualsFrom_eq (heap : Heap) (a b : Value) (more : Nat) :
    looselyEqualsFrom heap (heap.lists.size * heap.lists.size + 2 + more) [] a b =
      looselyEquals heap a b := by
  have enough : (unopened heap []).card < heap.lists.size * heap.lists.size + 2 := by
    simp [unopened]
  have same := looselyEqualsFrom_add heap _ [] a b more enough
  rw [looselyEquals]
  exact Bool.eq_iff_iff.mpr (by simpa only [Bool.not_eq_false] using not_congr same)

/-! ## Paths to a mismatch -/

namespace Differs

variable {heap : Heap} {path : List Nat} {a b : Value}

theorem symm (differs : Differs heap path a b) : Differs heap path b a := by
  induction differs with
  | plain notLists unequal =>
      exact .plain (areLists_swap _ _ ▸ notLists) (plainlyEquals_swap _ _ _ ▸ unequal)
  | size distinct unequal => exact .size distinct.symm unequal.symm
  | element distinct inLeft inRight further ih => exact .element distinct.symm inRight inLeft ih

/-- Related values have no mismatch inside, if related values always match. -/
theorem not_related {related : Value → Value → Prop}
    (closed : ∀ a b, related a b → Matches heap related a b) (differs : Differs heap path a b) :
    ¬ related a b := by
  induction differs with
  | plain notLists unequal =>
      intro holds
      have equal := (matches_plain notLists).mp (closed _ _ holds)
      rw [unequal] at equal
      cases equal
  | size distinct unequal =>
      intro holds
      rcases closed _ _ holds with same | elementwise
      · exact distinct same
      · exact unequal elementwise.length_eq
  | element distinct inLeft inRight further ih =>
      intro holds
      rcases closed _ _ holds with same | elementwise
      · exact distinct same
      · exact ih ((List.forall₂_iff_zip.mp elementwise).2
          (mem_zip_toList.mpr ⟨_, inLeft, inRight⟩))

end Differs

/-- A comparison that fails has found a path to a mismatch. -/
theorem exists_differs {heap : Heap} (fuel : Nat) :
    ∀ {opened a b}, looselyEqualsFrom heap fuel opened a b = false →
      ∃ path, Differs heap path a b := by
  induction fuel with
  | zero => nofun
  | succ fuel ih =>
      intro opened a b differ
      cases kind : areLists a b with
      | false => exact ⟨[], .plain kind (looselyEqualsFrom_plain kind fuel opened ▸ differ)⟩
      | true =>
          rcases exists_lists_of_areLists kind with ⟨x, y, rfl, rfl⟩
          rcases looselyEqualsFrom_lists.mp differ with
            ⟨distinct, -, unequal | ⟨position, left, right, inLeft, inRight, further⟩⟩
          · exact ⟨[], .size distinct unequal⟩
          · rcases ih further with ⟨path, differs⟩
            exact ⟨position :: path, .element distinct inLeft inRight differs⟩

/-- A shortest path to a mismatch is followed to its end: whatever pair is open has
only longer paths, so none of the pairs on the way is taken for equal. -/
theorem looselyEqualsFrom_of_differs {heap : Heap} {path : List Nat} {a b : Value}
    (differs : Differs heap path a b) :
    ∀ fuel opened, path.length < fuel →
      (∀ other, Differs heap other a b → path.length ≤ other.length) →
      (∀ x y, (x, y) ∈ opened → ∀ other, Differs heap other (list x) (list y) →
        path.length < other.length) →
      looselyEqualsFrom heap fuel opened a b = false := by
  induction differs with
  | plain notLists unequal =>
      intro fuel opened enough shortest longer
      cases fuel with
      | zero => cases enough
      | succ fuel => rw [looselyEqualsFrom_plain notLists, unequal]
  | @size x y distinct unequal =>
      intro fuel opened enough shortest longer
      cases fuel with
      | zero => cases enough
      | succ fuel =>
          have fresh : (x, y) ∉ opened := fun isOpen =>
            absurd (longer x y isOpen [] (.size distinct unequal)) (Nat.lt_irrefl 0)
          exact looselyEqualsFrom_lists.mpr ⟨distinct, fresh, .inl unequal⟩
  | @element x y position left right path distinct inLeft inRight further ih =>
      intro fuel opened enough shortest longer
      cases fuel with
      | zero => cases enough
      | succ fuel =>
          have whole := Differs.element distinct inLeft inRight further
          have fresh : (x, y) ∉ opened := fun isOpen =>
            absurd (longer x y isOpen _ whole) (Nat.lt_irrefl _)
          refine looselyEqualsFrom_lists.mpr
            ⟨distinct, fresh, .inr ⟨position, left, right, inLeft, inRight, ?_⟩⟩
          apply ih fuel _ (Nat.lt_of_succ_lt_succ enough)
          · intro other differs
            exact Nat.le_of_succ_le_succ (shortest _ (.element distinct inLeft inRight differs))
          · intro x' y' isOpen other differs
            rcases List.mem_cons.mp isOpen with same | isOpen
            · injection same with sameLeft sameRight
              subst sameLeft sameRight
              exact shortest other differs
            · exact Nat.lt_of_succ_lt (longer x' y' isOpen other differs)

/-- Loose equality fails exactly if some path leads to a mismatch. -/
theorem looselyEquals_eq_false {heap : Heap} {a b : Value} :
    looselyEquals heap a b = false ↔ ∃ path, Differs heap path a b := by
  constructor
  · exact exists_differs _
  · intro differ
    rcases WellFounded.has_min (measure List.length).wf {path | Differs heap path a b} differ with
      ⟨path, differs, shortest⟩
    rw [← looselyEqualsFrom_eq heap a b path.length]
    apply looselyEqualsFrom_of_differs differs
    · omega
    · intro other different
      exact Nat.le_of_not_lt (shortest other different)
    · nofun

/-- Values that loose equality takes for equal match, with equal elements in lists. -/
theorem matches_of_looselyEquals {heap : Heap} {a b : Value}
    (equal : looselyEquals heap a b = true) :
    Matches heap (fun a b => looselyEquals heap a b = true) a b := by
  have alike : ¬ ∃ path, Differs heap path a b := by
    rw [← looselyEquals_eq_false, equal]
    exact Bool.noConfusion
  cases kind : areLists a b with
  | false =>
      apply (matches_plain kind).mpr
      by_contra unequal
      exact alike ⟨[], .plain kind (Bool.not_eq_true _ ▸ unequal)⟩
  | true =>
      rcases exists_lists_of_areLists kind with ⟨x, y, rfl, rfl⟩
      by_cases same : x = y
      · exact .inl same
      · refine .inr (List.forall₂_iff_zip.mpr ⟨?_, ?_⟩)
        · by_contra unequal
          exact alike ⟨[], .size same unequal⟩
        · intro left right member
          rcases mem_zip_toList.mp member with ⟨position, inLeft, inRight⟩
          by_contra unequal
          rcases looselyEquals_eq_false.mp (Bool.not_eq_true _ ▸ unequal) with ⟨path, differs⟩
          exact alike ⟨position :: path, .element same inLeft inRight differs⟩

/-- Loose equality is the greatest relation under which related values match.  Every
comparison comes to an end, with an answer that no amount of further fuel changes; the
answer is no exactly if a path leads to a mismatch; and both sides may be exchanged. -/
theorem looselyEquals_isGreatest (heap : Heap) :
    IsGreatest {related | ∀ a b, related a b → Matches heap related a b}
      (fun a b => looselyEquals heap a b = true) ∧
    WellFounded (fun inner outer => Enters heap outer inner) ∧
    (∀ a b more, looselyEqualsFrom heap (heap.lists.size * heap.lists.size + 2 + more) [] a b =
      looselyEquals heap a b) ∧
    (∀ a b, looselyEquals heap a b = false ↔ ∃ path, Differs heap path a b) ∧
    ∀ a b, looselyEquals heap a b = looselyEquals heap b a := by
  refine ⟨⟨fun a b => matches_of_looselyEquals, ?_⟩, wellFounded_enters heap,
    looselyEqualsFrom_eq heap, fun _ _ => looselyEquals_eq_false, ?_⟩
  · intro related closed a b holds
    by_contra unequal
    rcases looselyEquals_eq_false.mp (Bool.not_eq_true _ ▸ unequal) with ⟨path, differs⟩
    exact differs.not_related closed holds
  · intro a b
    have swapped : (∃ path, Differs heap path a b) ↔ ∃ path, Differs heap path b a :=
      exists_congr fun path => ⟨Differs.symm, Differs.symm⟩
    rw [← looselyEquals_eq_false, ← looselyEquals_eq_false] at swapped
    exact Bool.eq_iff_iff.mpr (by simpa only [Bool.not_eq_false] using not_congr swapped)

end Value

end Hati
