import Hati.Equality
import Mathlib.Data.Prod.Lex
import Mathlib.Data.String.Basic

namespace Hati

/-!
# The default order

Without a comparator lists are sorted by the default order, which compares two numbers by
value and all other pairs by text.  Each of the two rules is a total preorder of its own, as
long as no number is undefined, but the values of one list may be compared by both.  Then the
order can go round in a circle: the text of ten comes before that of five, and the text of
five before that of nine, and nine is less than ten.

Whether the order is consistent is settled by three values at a time, and the ways in which
three values can go round in a circle are listed here.
-/

open Float.Model Float.Model.UnpackedFloat

namespace Number

/-! ## Numbers in a row -/

/-- The place of a number among all that are defined.  Signs decide first, and the infinite
numbers lie outside; then exponents do, and mantissas where the exponents agree. -/
def placeOf : UnpackedFloat → Option (Int ×ₗ Int ×ₗ Int)
  | .notANumber => none
  | .infinity .negative => some (toLex (-2, toLex (0, 0)))
  | .finite .negative mantissa exponent _ => some (toLex (-1, toLex (-exponent, -mantissa)))
  | .zero _ => some (toLex (0, toLex (0, 0)))
  | .finite .positive mantissa exponent _ => some (toLex (1, toLex (exponent, mantissa)))
  | .infinity .positive => some (toLex (2, toLex (0, 0)))

/-- An undefined number has no place. -/
def place? (x : Float) : Option (Int ×ₗ Int ×ₗ Int) :=
  placeOf x.toModel.unpack

private theorem magnitude_lt_iff (exponent other : Int) (mantissa another : Nat) :
    (compare exponent other).then (compare mantissa another) = .lt ↔
      exponent < other ∨ exponent = other ∧ mantissa < another := by
  rw [Ordering.then_eq_lt, Int.compare_eq_lt, Int.compare_eq_eq, Nat.compare_eq_lt]

private theorem magnitude_gt_iff (exponent other : Int) (mantissa another : Nat) :
    (compare exponent other).then (compare mantissa another) = .gt ↔
      other < exponent ∨ exponent = other ∧ another < mantissa := by
  rw [Ordering.then_eq_gt, Int.compare_eq_gt, Int.compare_eq_eq, Nat.compare_eq_gt]

/-- A number is less than another one if its place is. -/
theorem compare_eq_lt_iff (x y : UnpackedFloat) :
    x.compare y = some .lt ↔ ∃ p q, placeOf x = some p ∧ placeOf y = some q ∧ p < q := by
  have same : ∀ sign : Sign, compare sign sign = .eq := by
    intro sign
    cases sign <;> rfl
  have apart : compare Sign.negative .positive = .lt ∧ compare Sign.positive .negative = .gt :=
    ⟨rfl, rfl⟩
  rcases x with (_ | _) | _ | _ | ⟨_ | _, mantissa, exponent, _⟩ <;>
    rcases y with (_ | _) | _ | _ | ⟨_ | _, another, other, _⟩ <;>
    dsimp only [UnpackedFloat.compare, placeOf] <;>
    simp [Prod.Lex.toLex_lt_toLex, magnitude_lt_iff, magnitude_gt_iff, same, apart]

theorem lt_iff_place (x y : Float) :
    x < y ↔ ∃ p q, place? x = some p ∧ place? y = some q ∧ p < q := by
  rw [place?, place?, ← compare_eq_lt_iff, ← beq_iff_eq]
  exact decide_eq_true_iff

theorem place?_eq_none_iff (x : Float) : place? x = none ↔ x.isNaN = true := by
  show placeOf x.toModel.unpack = none ↔ x.toModel.unpack.isNaN = true
  rcases x.toModel.unpack with (_ | _) | _ | _ | ⟨_ | _, _, _, _⟩
  case notANumber => exact iff_of_true rfl rfl
  all_goals exact iff_of_false nofun nofun

theorem not_lt_of_lt {x y : Float} (less : x < y) : ¬ y < x := by
  intro greater
  obtain ⟨p, q, atX, atY, below⟩ := (lt_iff_place x y).mp less
  obtain ⟨q', p', atY', atX', above⟩ := (lt_iff_place y x).mp greater
  cases atX.symm.trans atX'
  cases atY.symm.trans atY'
  exact lt_asymm below above

/-- Numbers that do not fall on the way do not fall as a whole, unless the one in the middle
is undefined. -/
theorem not_lt_trans {x y z : Float} (isDefined : y.isNaN = false) (first : ¬ y < x)
    (second : ¬ z < y) : ¬ z < x := by
  intro falls
  obtain ⟨r, p, atZ, atX, below⟩ := (lt_iff_place z x).mp falls
  cases atY : place? y with
  | none =>
      rw [(place?_eq_none_iff y).mp atY] at isDefined
      cases isDefined
  | some q =>
      have notFirst : ¬ q < p := fun less => first ((lt_iff_place y x).mpr ⟨q, p, atY, atX, less⟩)
      have notSecond : ¬ r < q := fun less => second ((lt_iff_place z y).mpr ⟨r, q, atZ, atY, less⟩)
      exact notFirst (lt_of_le_of_lt (not_lt.mp notSecond) below)

/-- An undefined number is neither less nor greater than another one. -/
theorem not_lt_of_isNaN {x y : Float} (undefined : x.isNaN = true) : ¬ x < y ∧ ¬ y < x := by
  have nowhere := (place?_eq_none_iff x).mpr undefined
  constructor
  · intro less
    obtain ⟨p, -, atX, -⟩ := (lt_iff_place x y).mp less
    cases nowhere.symm.trans atX
  · intro less
    obtain ⟨-, p, -, atX, -⟩ := (lt_iff_place y x).mp less
    cases nowhere.symm.trans atX

end Number

/-! ## Consistency -/

/-- The relation is a total preorder on the members of a list. -/
structure IsPreorderOn {α : Type} (le : α → α → Bool) (items : List α) : Prop where
  total : ∀ a ∈ items, ∀ b ∈ items, le a b = true ∨ le b a = true
  trans : ∀ a ∈ items, ∀ b ∈ items, ∀ c ∈ items,
    le a b = true → le b c = true → le a c = true

namespace Value

variable {heap : Heap} {a b c : Value} {x y : Float}

/-- In the default order the first value is not greater than the second one. -/
def mayPrecede (heap : Heap) (a b : Value) : Bool :=
  defaultOrder heap a b != .gt

/-- Three values that go round in a circle: none of the first two is greater than the next
one, but the first is greater than the last. -/
inductive Clashes (heap : Heap) : Value → Value → Value → Prop where
  /-- An undefined number counts as equal to both of two numbers that fall. -/
  | undefined {x y z : Float} (isUndefined : y.isNaN = true) (falls : z < x) :
    Clashes heap (number x) (number y) (number z)
  /-- Two numbers fall, and another value lies between them by text. -/
  | between {x y : Float} {other : Value} (isOther : other.type ≠ .number) (falls : y < x)
    (above : (number x).toText heap ≤ other.toText heap)
    (below : other.toText heap ≤ (number y).toText heap) :
    Clashes heap (number x) other (number y)
  /-- Two numbers do not fall, but by text another value lies before the first and behind
  the second. -/
  | before {x y : Float} {other : Value} (isOther : other.type ≠ .number) (rises : ¬ y < x)
    (below : other.toText heap ≤ (number x).toText heap)
    (above : (number y).toText heap < other.toText heap) :
    Clashes heap other (number x) (number y)
  | behind {x y : Float} {other : Value} (isOther : other.type ≠ .number) (rises : ¬ y < x)
    (above : (number y).toText heap ≤ other.toText heap)
    (below : other.toText heap < (number x).toText heap) :
    Clashes heap (number x) (number y) other

theorem number_or_other (value : Value) : (∃ x, value = number x) ∨ value.type ≠ .number := by
  cases value with
  | number x => exact .inl ⟨x, rfl⟩
  | _ => exact .inr nofun

theorem defaultOrder_numbers (heap : Heap) (x y : Float) :
    defaultOrder heap (number x) (number y) = if x < y then .lt else if y < x then .gt else .eq :=
  rfl

/-- If one of two values is no number, they are compared by text. -/
theorem defaultOrder_of_other (isOther : a.type ≠ .number ∨ b.type ≠ .number) :
    defaultOrder heap a b = compare (a.toText heap) (b.toText heap) := by
  unfold defaultOrder
  split
  · rcases isOther with isOther | isOther <;> exact absurd rfl isOther
  · rfl

theorem mayPrecede_numbers : mayPrecede heap (number x) (number y) = true ↔ ¬ y < x := by
  rw [mayPrecede, defaultOrder_numbers, bne_iff_ne]
  by_cases less : x < y
  · rw [if_pos less]
    exact iff_of_true nofun (Number.not_lt_of_lt less)
  · rw [if_neg less]
    by_cases greater : y < x
    · rw [if_pos greater]
      exact iff_of_false (fun differs => differs rfl) (fun rises => rises greater)
    · rw [if_neg greater]
      exact iff_of_true nofun greater

theorem mayPrecede_of_other (isOther : a.type ≠ .number ∨ b.type ≠ .number) :
    mayPrecede heap a b = true ↔ a.toText heap ≤ b.toText heap := by
  rw [mayPrecede, defaultOrder_of_other isOther, bne_iff_ne]
  exact compare_le_iff_le

theorem defaultOrder_swap (heap : Heap) (a b : Value) :
    defaultOrder heap a b = (defaultOrder heap b a).swap := by
  rcases number_or_other a with ⟨x, rfl⟩ | isOther
  · rcases number_or_other b with ⟨y, rfl⟩ | isOther
    · rw [defaultOrder_numbers, defaultOrder_numbers]
      by_cases less : x < y
      · rw [if_pos less, if_neg (Number.not_lt_of_lt less), if_pos less]
        rfl
      · by_cases greater : y < x
        · rw [if_neg less, if_pos greater, if_pos greater]
          rfl
        · rw [if_neg less, if_neg greater, if_neg greater, if_neg less]
          rfl
    · rw [defaultOrder_of_other (.inr isOther), defaultOrder_of_other (.inl isOther)]
      exact Std.OrientedCmp.eq_swap
  · rw [defaultOrder_of_other (.inl isOther), defaultOrder_of_other (.inr isOther)]
    exact Std.OrientedCmp.eq_swap

theorem mayPrecede_total (heap : Heap) (a b : Value) :
    mayPrecede heap a b = true ∨ mayPrecede heap b a = true := by
  rw [mayPrecede, mayPrecede, defaultOrder_swap heap b a]
  cases defaultOrder heap a b with
  | lt => exact .inl rfl
  | eq => exact .inl rfl
  | gt => exact .inr rfl

theorem Clashes.circular (clashes : Clashes heap a b c) :
    mayPrecede heap a b = true ∧ mayPrecede heap b c = true ∧ ¬ mayPrecede heap a c = true := by
  cases clashes with
  | undefined isUndefined falls =>
      rw [mayPrecede_numbers, mayPrecede_numbers, mayPrecede_numbers]
      have apart := fun z => @Number.not_lt_of_isNaN _ z isUndefined
      exact ⟨(apart _).1, (apart _).2, fun rises => rises falls⟩
  | between isOther falls above below =>
      rw [mayPrecede_of_other (.inr isOther), mayPrecede_of_other (.inl isOther),
        mayPrecede_numbers]
      exact ⟨above, below, fun rises => rises falls⟩
  | before isOther rises below above =>
      rw [mayPrecede_of_other (.inl isOther), mayPrecede_of_other (.inl isOther),
        mayPrecede_numbers]
      exact ⟨below, rises, not_le.mpr above⟩
  | behind isOther rises above below =>
      rw [mayPrecede_of_other (.inr isOther), mayPrecede_of_other (.inr isOther),
        mayPrecede_numbers]
      exact ⟨rises, above, not_le.mpr below⟩

/-- There is no other way to go round in a circle. -/
theorem clashes_of_circular (first : mayPrecede heap a b = true)
    (second : mayPrecede heap b c = true) (backwards : ¬ mayPrecede heap a c = true) :
    Clashes heap a b c := by
  rcases number_or_other a with ⟨x, rfl⟩ | otherA
  · rcases number_or_other c with ⟨z, rfl⟩ | otherC
    · rw [mayPrecede_numbers, not_not] at backwards
      rcases number_or_other b with ⟨y, rfl⟩ | otherB
      · rw [mayPrecede_numbers] at first second
        cases isUndefined : y.isNaN with
        | true => exact .undefined isUndefined backwards
        | false => exact absurd backwards (Number.not_lt_trans isUndefined first second)
      · rw [mayPrecede_of_other (.inr otherB)] at first
        rw [mayPrecede_of_other (.inl otherB)] at second
        exact .between otherB backwards first second
    · rw [mayPrecede_of_other (.inr otherC)] at second backwards
      rcases number_or_other b with ⟨y, rfl⟩ | otherB
      · rw [mayPrecede_numbers] at first
        exact .behind otherC first second (not_le.mp backwards)
      · rw [mayPrecede_of_other (.inr otherB)] at first
        exact absurd (first.trans second) backwards
  · rw [mayPrecede_of_other (.inl otherA)] at first backwards
    rcases number_or_other b with ⟨y, rfl⟩ | otherB
    · rcases number_or_other c with ⟨z, rfl⟩ | otherC
      · rw [mayPrecede_numbers] at second
        exact .before otherA second first (not_le.mp backwards)
      · rw [mayPrecede_of_other (.inr otherC)] at second
        exact absurd (first.trans second) backwards
    · rw [mayPrecede_of_other (.inl otherB)] at second
      exact absurd (first.trans second) backwards

/-- Numbers that are all defined do not clash, and neither do values of which none is a
number. -/
theorem not_clashes_of_alike {items : List Value}
    (alike : (∀ item ∈ items, ∃ x, item = number x ∧ x.isNaN = false) ∨
      ∀ item ∈ items, item.type ≠ .number)
    (memberA : a ∈ items) (memberB : b ∈ items) (memberC : c ∈ items) :
    ¬ Clashes heap a b c := by
  intro clashes
  rcases alike with numbers | others
  · cases clashes with
    | undefined isUndefined falls =>
        obtain ⟨y, same, isDefined⟩ := numbers _ memberB
        cases same
        rw [isUndefined] at isDefined
        cases isDefined
    | between isOther falls above below =>
        obtain ⟨y, rfl, -⟩ := numbers _ memberB
        exact isOther rfl
    | before isOther rises below above =>
        obtain ⟨y, rfl, -⟩ := numbers _ memberA
        exact isOther rfl
    | behind isOther rises above below =>
        obtain ⟨y, rfl, -⟩ := numbers _ memberC
        exact isOther rfl
  · cases clashes with
    | undefined => exact others _ memberA rfl
    | between => exact others _ memberA rfl
    | before => exact others _ memberB rfl
    | behind => exact others _ memberA rfl

/-- Where the default order is consistent.  It turns round when its arguments do, and three
values go round in a circle exactly if they clash.  So on the elements of a list it is a total
preorder exactly if no three of them clash, for which it is enough that all are defined
numbers, or that none is a number. -/
theorem defaultOrder_consistent_iff (heap : Heap) (items : List Value) :
    (∀ a b, defaultOrder heap a b = (defaultOrder heap b a).swap) ∧
    (∀ a b c, Clashes heap a b c ↔
      mayPrecede heap a b = true ∧ mayPrecede heap b c = true ∧ ¬ mayPrecede heap a c = true) ∧
    (IsPreorderOn (mayPrecede heap) items ↔
      ∀ a ∈ items, ∀ b ∈ items, ∀ c ∈ items, ¬ Clashes heap a b c) ∧
    ((∀ item ∈ items, ∃ x, item = number x ∧ x.isNaN = false) ∨
        (∀ item ∈ items, item.type ≠ .number) → IsPreorderOn (mayPrecede heap) items) := by
  have circular : ∀ a b c, Clashes heap a b c ↔
      mayPrecede heap a b = true ∧ mayPrecede heap b c = true ∧ ¬ mayPrecede heap a c = true :=
    fun a b c =>
      ⟨Clashes.circular, fun ⟨first, second, back⟩ => clashes_of_circular first second back⟩
  have consistent : IsPreorderOn (mayPrecede heap) items ↔
      ∀ a ∈ items, ∀ b ∈ items, ∀ c ∈ items, ¬ Clashes heap a b c := by
    constructor
    · intro preorder a memberA b memberB c memberC clashes
      obtain ⟨first, second, backwards⟩ := (circular a b c).mp clashes
      exact backwards (preorder.trans a memberA b memberB c memberC first second)
    · intro apart
      refine ⟨fun a _ b _ => mayPrecede_total heap a b, ?_⟩
      intro a memberA b memberB c memberC first second
      by_contra backwards
      exact apart a memberA b memberB c memberC ((circular a b c).mpr ⟨first, second, backwards⟩)
  refine ⟨defaultOrder_swap heap, circular, consistent, fun alike => consistent.mpr ?_⟩
  intro a memberA b memberB c memberC
  exact not_clashes_of_alike alike memberA memberB memberC

/-- Ten, the text of five and nine go round in a circle; without the text they do not. -/
theorem defaultOrder_consistent_iff_mixed :
    ¬ IsPreorderOn (mayPrecede {}) [number 10, text "5", number 9] ∧
      IsPreorderOn (mayPrecede {}) [number 10, number 9] := by
  constructor
  · intro preorder
    have clashes : Clashes {} (number 10) (text "5") (number 9) :=
      .between nofun (by decide +kernel) (by decide +kernel) (by decide +kernel)
    have apart := (defaultOrder_consistent_iff {} _).2.2.1.mp preorder
    exact apart (number 10) (by simp) (text "5") (by simp) (number 9) (by simp) clashes
  · apply (defaultOrder_consistent_iff {} _).2.2.2
    left
    intro item member
    rcases List.mem_cons.mp member with rfl | member
    · exact ⟨10, rfl, by decide +kernel⟩
    · exact ⟨9, List.mem_singleton.mp member, by decide +kernel⟩

end Value

end Hati
