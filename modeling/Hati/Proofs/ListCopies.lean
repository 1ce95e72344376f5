import Hati.Proofs.Allocation
import Hati.Proofs.DeepEquality

namespace Hati

/-!
# A list and its copy

A copy of a list has the same elements, and elements are all that loose equality looks at
when it compares two different lists.  So a list and its copy come out alike against every
list but one: the list itself.  Against itself the list is equal without a look at its
elements, while the copy is compared element by element.  That makes a difference if an
element is not equal to itself, and the only values of this kind are undefined numbers.  Lists
inside the list are shared with the copy, so what stands deeper makes none.
-/

open Float.Model Float.Model.UnpackedFloat

/-- A number is equal to itself unless it is undefined. -/
theorem Number.beq_self (x : Float) : (x == x) = !x.isNaN := by
  show (x.toModel.unpack.compare x.toModel.unpack == some .eq) = !x.toModel.unpack.isNaN
  rcases x.toModel.unpack with (_ | _) | _ | _ | ⟨_ | _, mantissa, exponent, _⟩
  case finite.negative => simp [UnpackedFloat.compare, UnpackedFloat.isNaN]
  case finite.positive => simp [UnpackedFloat.compare, UnpackedFloat.isNaN]
  all_goals rfl

theorem Heap.list_allocList_of_holds {heap : Heap} {ref : ListRef} (held : heap.Holds (.list ref))
    (items : Array Value) : (heap.allocList items).2.list ref = heap.list ref := by
  simp [Heap.list, Heap.allocList, Array.getD_eq_getD_getElem?, Array.getElem?_push,
    Nat.ne_of_lt held]

namespace Value

variable {heap : Heap} {x y copy : ListRef}

/-- Not a number, though of the type of numbers. -/
def isUndefined : Value → Bool
  | number x => x.isNaN
  | _ => false

/-- Undefined numbers are the only values that are not equal to themselves. -/
theorem looselyEquals_self (heap : Heap) (value : Value) :
    looselyEquals heap value value = !value.isUndefined := by
  cases value with
  | number x => exact Number.beq_self x
  | list ref => simp [looselyEquals, looselyEqualsFrom, isUndefined]
  | _ => simp [looselyEquals, looselyEqualsFrom, isUndefined]

/-- Two different lists are equal exactly if their elements are. -/
theorem looselyEquals_lists (distinct : x ≠ y) :
    looselyEquals heap (list x) (list y) = true ↔
      List.Forall₂ (fun a b => looselyEquals heap a b = true)
        (heap.list x).toList (heap.list y).toList := by
  constructor
  · intro equal
    exact (matches_of_looselyEquals equal).resolve_left distinct
  · intro elementwise
    by_contra unequal
    obtain ⟨path, differs⟩ := looselyEquals_eq_false.mp (Bool.not_eq_true _ ▸ unequal)
    cases differs with
    | plain notLists => cases notLists
    | size _ sizes => exact sizes elementwise.length_eq
    | element _ inLeft inRight further =>
        have equal := (List.forall₂_iff_zip.mp elementwise).2
          (mem_zip_toList.mpr ⟨_, inLeft, inRight⟩)
        rw [looselyEquals_eq_false.mpr ⟨_, further⟩] at equal
        cases equal

/-- A list and its copy compare alike with every list that is neither of them. -/
theorem looselyEquals_copy (alike : heap.list copy = heap.list x) (notOriginal : x ≠ y)
    (notCopy : copy ≠ y) :
    looselyEquals heap (list copy) (list y) = looselyEquals heap (list x) (list y) := by
  rw [Bool.eq_iff_iff, looselyEquals_lists notCopy, looselyEquals_lists notOriginal, alike]

/-- A list is equal to its copy exactly if it holds no undefined number. -/
theorem looselyEquals_copy_self (alike : heap.list copy = heap.list x) (distinct : copy ≠ x) :
    looselyEquals heap (list copy) (list x) = true ↔
      ∀ value ∈ heap.list x, value.isUndefined = false := by
  rw [looselyEquals_lists distinct, alike, List.forall₂_same]
  simp [looselyEquals_self]

theorem looselyEquals_comm (heap : Heap) (a b : Value) :
    looselyEquals heap a b = looselyEquals heap b a := by
  have swapped : looselyEquals heap a b = false ↔ looselyEquals heap b a = false := by
    rw [looselyEquals_eq_false, looselyEquals_eq_false]
    exact exists_congr fun path => ⟨Differs.symm, Differs.symm⟩
  exact Bool.eq_iff_iff.mpr (by simpa only [Bool.not_eq_false] using not_congr swapped)

/-- Putting a copy in the place of a list changes no comparison, on either side, unless the list is
compared with itself and holds an undefined number.  The list itself is equal to itself even then,
and only the copy is found to be different. -/
theorem copy_alike_iff {heap : Heap} {x y : ListRef} (held : heap.Holds (.list x))
    (heldToo : heap.Holds (.list y)) :
    let copy := (heap.allocList (heap.list x)).1
    let later := (heap.allocList (heap.list x)).2
    looselyEquals later (list x) (list x) = true ∧
    ((looselyEquals later (list x) (list y) = looselyEquals later (list copy) (list y) ∧
      looselyEquals later (list y) (list x) = looselyEquals later (list y) (list copy)) ↔
      (x = y → ∀ value ∈ heap.list x, value.isUndefined = false)) := by
  intro copy later
  have notOriginal : copy ≠ x := fun same => Nat.ne_of_gt held (congrArg ListRef.index same)
  have notOther : copy ≠ y := fun same => Nat.ne_of_gt heldToo (congrArg ListRef.index same)
  have kept : later.list x = heap.list x := Heap.list_allocList_of_holds held _
  have alike : later.list copy = later.list x := (Heap.list_allocList heap _).trans kept.symm
  have itself : looselyEquals later (list x) (list x) = true := looselyEquals_self later (list x)
  refine ⟨itself, ?_⟩
  rw [looselyEquals_comm later (list y), looselyEquals_comm later (list y), and_self_iff]
  by_cases same : x = y
  · subst same
    rw [itself, ← kept, ← looselyEquals_copy_self alike notOriginal, eq_comm]
    exact ⟨fun equal _ => equal, fun equal => equal rfl⟩
  · rw [looselyEquals_copy alike same notOther]
    exact iff_of_true rfl fun impossible => absurd impossible same

/-- A list of one undefined number is equal to itself, and not to its copy. -/
theorem copy_alike_iff_undefined :
    let heap : Heap := { lists := #[#[.number (0 / 0)]] }
    let later := (heap.allocList (heap.list ⟨0⟩)).2
    heap.Holds (.list ⟨0⟩) ∧ looselyEquals later (list ⟨0⟩) (list ⟨0⟩) = true ∧
      looselyEquals later (list ⟨1⟩) (list ⟨0⟩) = false := by
  intro heap later
  have held : heap.Holds (.list ⟨0⟩) := Nat.zero_lt_one
  have undefined : (Value.number (0 / 0)).isUndefined = true := by decide
  have member : Value.number (0 / 0) ∈ heap.list ⟨0⟩ := by simp [heap, Heap.list]
  obtain ⟨itself, alike⟩ := copy_alike_iff held held
  refine ⟨held, itself, Bool.eq_false_iff.mpr fun equal => ?_⟩
  have same : looselyEquals later (list ⟨0⟩) (list ⟨0⟩) =
      looselyEquals later (list ⟨1⟩) (list ⟨0⟩) := itself.trans equal.symm
  have defined := alike.mp ⟨same, same.trans (looselyEquals_comm _ _ _)⟩ rfl _ member
  rw [undefined] at defined
  cases defined

end Value

end Hati
