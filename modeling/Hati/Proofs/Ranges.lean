import Hati.Library.List
import Hati.Proofs.ReturnPropagation
import Hati.Proofs.WholeNumbers

namespace Hati

/-!
# Ranges and their bounds

A bound of a range is a value that stands for a whole number.  Numbers that are too large for a word
of 64 bits, the infinite ones among them, stand for the nearest word.  A bound is then brought
between zero and the length, where a negative one counts from the end.

On whole numbers nothing can go wrong on the way.  The same is computed here on words, where each
step has to check that its result is a word again: as long as the length is a signed word, all the
checks succeed, and the words come to the same range.
-/

/-! ## Words -/

namespace Word

/-- The number is a signed word of 64 bits. -/
def IsSigned (n : Int) : Prop :=
  -2 ^ 63 ≤ n ∧ n < 2 ^ 63

instance (n : Int) : Decidable (IsSigned n) :=
  inferInstanceAs (Decidable (_ ∧ _))

/-- A number as a signed word, unless it overflows. -/
def signed? (n : Int) : Option Int :=
  if IsSigned n then some n else none

/-- A number as an unsigned word, unless it overflows. -/
def unsigned? (n : Int) : Option Nat :=
  if 0 ≤ n ∧ n < 2 ^ 64 then some n.toNat else none

/-- The nearest number between two others, which have to be in order. -/
def clamp? (n low high : Int) : Option Int :=
  if low ≤ high then some (max low (min n high)) else none

variable {n low high : Int}

theorem signed?_of_isSigned (word : IsSigned n) : signed? n = some n :=
  if_pos word

theorem unsigned?_of_isSigned (nonneg : 0 ≤ n) (word : IsSigned n) :
    unsigned? n = some n.toNat :=
  if_pos ⟨nonneg, by unfold IsSigned at word; omega⟩

theorem clamp?_of_le (ordered : low ≤ high) : clamp? n low high = some (max low (min n high)) :=
  if_pos ordered

theorem isSigned_natCast {length : Nat} (fits : length < 2 ^ 63) : IsSigned length := by
  unfold IsSigned
  omega

end Word

/-! ## The whole number that a value stands for -/

namespace Number

theorem isSigned_truncate (x : Float) : Word.IsSigned (truncate x) := by
  have bound : wordBound 64 = 2 ^ 63 := rfl
  unfold Word.IsSigned truncate truncateTo
  rw [bound]
  cases Dyadic.ofFloat? x with
  | some exact =>
      dsimp only
      omega
  | none =>
      dsimp only
      split
      · omega
      · split <;> omega

end Number

namespace Value

theorem toIndex_number {x : Float} (defined : x.isNaN = false) :
    (number x).toIndex = .ok (Number.truncate x) := by
  show (if x.isNaN then _ else _) = _
  rw [defined]
  rfl

theorem isSigned_of_toIndex {value : Value} {index : Int} (stands : value.toIndex = .ok index) :
    Word.IsSigned index := by
  unfold toIndex at stands
  cases converted : value.toNumber with
  | error cause =>
      rw [converted] at stands
      cases stands
  | ok x =>
      rw [converted] at stands
      change (if x.isNaN then .error .indexNotANumber else .ok (Number.truncate x) :
        Except Cause Int) = .ok index at stands
      split at stands
      · cases stands
      · cases stands
        exact Number.isSigned_truncate x

/-- A number that counts something stands for that count, as long as it is exact. -/
theorem toIndex_ofNat {count : Nat} (exact : count < 2 ^ 53) :
    (Value.ofNat count).toIndex = .ok count := by
  have whole : Number.IsWhole (Float.ofNat count) count :=
    @Number.isWhole_ofInt (.ofNat count) exact
  obtain ⟨_, finite, -⟩ := id whole
  have index := toIndex_number (Dyadic.isNaN_isInf_eq_false finite).1
  rw [whole.truncate exact] at index
  exact index

theorem toIndex_zero : (number 0).toIndex = .ok 0 :=
  @toIndex_ofNat 0 (by decide)

end Value

/-- The whole number that an optional argument stands for; null is as good as none. -/
def indexArgument : Option Value → Except Cause (Option Int)
  | none | some .null => .ok none
  | some value => some <$> value.toIndex

theorem indexArgument_some {value : Value} (present : value ≠ .null) :
    indexArgument (some value) = some <$> value.toIndex := by
  cases value with
  | null => exact absurd rfl present
  | _ => rfl

theorem indexArgument_of_toIndex {value : Value} {index : Int}
    (stands : value.toIndex = .ok index) : indexArgument (some value) = .ok (some index) := by
  rw [indexArgument_some, stands]
  · rfl
  · rintro rfl
    cases stands

/-! ## Bounds -/

theorem normalizeBound_le (index : Int) (length : Nat) : normalizeBound index length ≤ length := by
  unfold normalizeBound
  dsimp only
  omega

/-- A bound that counts from the start. -/
theorem normalizeBound_natCast (position length : Nat) :
    normalizeBound position length = min position length := by
  unfold normalizeBound
  dsimp only
  omega

/-- Where a range over so many items begins or ends, unless an argument says so. -/
def boundOr (default length : Nat) : Option Int → Nat
  | none => default
  | some index => normalizeBound index length

theorem boundOr_le {default length : Nat} (inside : default ≤ length) (index : Option Int) :
    boundOr default length index ≤ length := by
  cases index with
  | none => exact inside
  | some index => exact normalizeBound_le index length

theorem boundArgument_eq (args : List Value) (position length default : Nat) :
    boundArgument args position length default =
      boundOr default length <$> indexArgument args[position]? := by
  have bounded (converted : Except Cause Int) :
      (do
        let index ← converted
        .ok (normalizeBound index length)) =
      boundOr default length <$> some <$> converted := by
    cases converted <;> rfl
  unfold boundArgument
  cases args[position]? with
  | none => rfl
  | some value =>
      cases value with
      | null => rfl
      | _ => exact bounded _

section Ranges

variable {args : List Value} {cause : Cause}

theorem rangeArguments_of_indices {first last : Option Int}
    (begins : indexArgument args[0]? = .ok first) (ends : indexArgument args[1]? = .ok last)
    (length : Nat) :
    rangeArguments args length = .ok (boundOr 0 length first, boundOr length length last) := by
  unfold rangeArguments
  rw [boundArgument_eq, boundArgument_eq, begins, ends]
  rfl

/-- The bounds are looked at in order. -/
theorem rangeArguments_of_unfit
    (unfit : indexArgument args[0]? = .error cause ∨
      ∃ first, indexArgument args[0]? = .ok first ∧ indexArgument args[1]? = .error cause)
    (length : Nat) : rangeArguments args length = .error cause := by
  unfold rangeArguments
  rw [boundArgument_eq, boundArgument_eq]
  rcases unfit with unfit | ⟨first, begins, unfit⟩
  · rw [unfit]
    rfl
  · rw [begins, unfit]
    rfl

end Ranges

/-- How many of the available items a splice takes out. -/
def countOr (available : Nat) : Option Int → Nat
  | none => available
  | some index => min index.toNat available

theorem countOr_le (available : Nat) (index : Option Int) :
    countOr available index ≤ available := by
  cases index with
  | none => exact Nat.le_refl available
  | some index => exact Nat.min_le_right _ _

theorem Elements.removalCount_eq (count : Option Value) (available : Nat) :
    removalCount count available = countOr available <$> indexArgument count := by
  have counted (converted : Except Cause Int) :
      (do
        let index ← converted
        .ok (min index.toNat available)) =
      countOr available <$> some <$> converted := by
    cases converted <;> rfl
  unfold removalCount
  cases count with
  | none => rfl
  | some value =>
      cases value with
      | null => rfl
      | _ => exact counted _

/-! ## The same on words -/

namespace Word

variable {length start : Nat}

/-- A position, where a negative index counts from the end. -/
def position? (index length : Int) : Option Int :=
  if index < 0 then signed? (length + index) else some index

/-- A bound of a range, computed on words. -/
def bound? (index : Int) (length : Nat) : Option Nat := do
  let whole ← signed? length
  let position ← position? index whole
  let bound ← clamp? position 0 whole
  unsigned? bound

/-- How many of the available items a splice takes out, computed on words. -/
def count? (available : Nat) : Option Int → Option Nat
  | none => some available
  | some index => do
    let most ← signed? available
    let count ← clamp? index 0 most
    unsigned? count

/-- Where the items end that a splice takes out, computed on words; they have to form a range. -/
def removalEnd? (start length : Nat) (count : Option Int) : Option Nat := do
  let available ← unsigned? ((length : Int) - start)
  let count ← count? available count
  let stop ← unsigned? ((start : Int) + count)
  if start ≤ stop ∧ stop ≤ length then some stop else none

theorem bound?_eq (fits : length < 2 ^ 63) {index : Int} (word : IsSigned index) :
    bound? index length = some (normalizeBound index length) := by
  have whole := signed?_of_isSigned (isSigned_natCast fits)
  have ordered : (0 : Int) ≤ length := Int.natCast_nonneg length
  have inside : position? index length = some (if index < 0 then length + index else index) := by
    unfold position?
    split
    · exact signed?_of_isSigned (by unfold IsSigned at word ⊢; omega)
    · rfl
  simp only [bound?, whole, inside, clamp?_of_le ordered, Option.bind_eq_bind, Option.bind_some]
  rw [unsigned?_of_isSigned (by omega) (by unfold IsSigned; omega), normalizeBound]
  exact congrArg (some ∘ Int.toNat) (by omega)

theorem count?_eq {available : Nat} (fits : available < 2 ^ 63) (count : Option Int) :
    count? available count = some (countOr available count) := by
  cases count with
  | none => rfl
  | some index =>
      have most := signed?_of_isSigned (isSigned_natCast fits)
      have ordered : (0 : Int) ≤ available := Int.natCast_nonneg available
      simp only [count?, most, clamp?_of_le ordered, Option.bind_eq_bind, Option.bind_some]
      rw [unsigned?_of_isSigned (by omega) (by unfold IsSigned; omega), countOr]
      exact congrArg some (by omega)

theorem removalEnd?_eq (fits : length < 2 ^ 63) (inside : start ≤ length) (count : Option Int) :
    removalEnd? start length count = some (start + countOr (length - start) count) := by
  have least := countOr_le (length - start) count
  have available : unsigned? ((length : Int) - start) = some (length - start) := by
    rw [unsigned?_of_isSigned (by omega) (by unfold IsSigned; omega)]
    exact congrArg some (by omega)
  have stop : unsigned? ((start : Int) + countOr (length - start) count) =
      some (start + countOr (length - start) count) := by
    rw [unsigned?_of_isSigned (by omega) (by unfold IsSigned; omega)]
    exact congrArg some (by omega)
  have counted := count?_eq (Nat.lt_of_le_of_lt (Nat.sub_le length start) fits) count
  rw [removalEnd?, available, Option.bind_eq_bind, Option.bind_some, counted, Option.bind_some,
    stop, Option.bind_some]
  exact if_pos ⟨Nat.le_add_right _ _, by omega⟩

end Word

end Hati
