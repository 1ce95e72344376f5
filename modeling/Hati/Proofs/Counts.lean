import Hati.Proofs.WholeNumbers

namespace Hati

/-!
# Numbers that count

Lengths and positions are counts, and a program gets them as numbers.  A count never becomes a
number below zero, however large it is, so that minus one is free to say that there is no position.
Counts add up exactly as long as whole numbers are exact.
-/

open Float.Model Float.Model.UnpackedFloat

namespace Number

/-! ## The sign of a count -/

/-- The number has no minus sign. -/
def Unsigned (parts : UnpackedFloat) : Prop :=
  match parts with
  | .infinity sign | .zero sign | .finite sign _ _ _ => sign = .positive
  | .notANumber => True

theorem unpackSign_pack {parts : UnpackedFloat} (unsigned : Unsigned parts) :
    unpackSign (UnpackedFloat.pack Format.binary64 parts) = 0 := by
  cases parts with
  | notANumber => exact unpackSign_packComponents _ _ _
  | infinity sign =>
    cases unsigned
    exact unpackSign_packComponents _ _ _
  | zero sign =>
    cases unsigned
    exact unpackSign_packComponents _ _ _
  | finite sign mantissa exponent positive =>
    cases unsigned
    unfold UnpackedFloat.pack
    dsimp only
    split
    · exact unpackSign_packComponents _ _ _
    · split <;> exact unpackSign_packComponents _ _ _

theorem unsigned_roundWithAccuracy (mantissa : Nat) (exponent : Int) (accuracy : Accuracy) :
    Unsigned (roundWithAccuracy Format.binary64 .positive mantissa exponent accuracy) := by
  unfold roundWithAccuracy
  dsimp only
  split <;> rfl

theorem unsigned_mul {first second : Nat} {high low : Int} (positive : 0 < first)
    (positiveSecond : 0 < second) :
    Unsigned (UnpackedFloat.mul Format.binary64 (.finite .positive first high positive)
      (.finite .positive second low positiveSecond)) :=
  unsigned_roundWithAccuracy _ _ _

theorem unsigned_ofScientific {n : Nat} (positive : 0 < n) :
    Unsigned (UnpackedFloat.ofScientific Format.binary64 n 0) := by
  have reach : (0 : Int) ≤ 2 ^ Format.binary64.exponentBits := by decide
  have notLarge : ¬(0 : Int) > 2 ^ Format.binary64.exponentBits := Int.not_lt.mpr reach
  have notTiny : ¬(0 : Int) < -((2 ^ Format.binary64.exponentBits : Int) + n.log2) := by
    omega
  unfold UnpackedFloat.ofScientific
  rw [dif_neg positive.ne', if_neg notLarge, if_neg notTiny, if_pos (Int.le_refl 0)]
  exact unsigned_mul _ _

/-- A count is packed from parts without a minus sign. -/
theorem ofNat_unsigned (n : Nat) :
    ∃ parts, Float.ofNat n = .ofModel (.pack parts) ∧ Unsigned parts := by
  rcases Nat.eq_zero_or_pos n with rfl | positive
  · exact ⟨.zero .positive, by decide +kernel, rfl⟩
  · rcases Nat.lt_or_ge n (2 ^ 53) with exact | large
    · exact ⟨_, ofNat_eq_pack positive exact, rfl⟩
    -- A larger count is read like a decimal number, and rounded.
    · refine ⟨_, ?_, unsigned_ofScientific positive⟩
      show Float.ofScientific n false 0 = _
      unfold Float.ofScientific
      rw [dif_neg fun small => absurd small.1 (Nat.not_lt.mpr large)]
      rfl

theorem ofNat_ne_neg_one (n : Nat) : Float.ofNat n ≠ -1 := by
  obtain ⟨parts, made, unsigned⟩ := ofNat_unsigned n
  intro same
  have minus : @unpackSign Format.binary64 (-1 : Float).toModel.toBits.toBitVec = 1 := by
    decide +kernel
  rw [← same, made] at minus
  exact absurd ((unpackSign_pack unsigned).symm.trans minus) (by decide)

/-! ## Sums of counts -/

/-- The mantissa of a whole number with more zeros behind it, so that its last place is that of a
smaller number. -/
theorem decreaseExponent_whole {n place : Nat} (positive : 0 < n) (exact : n < 2 ^ 53)
    (below : place ≤ n.log2) :
    decreaseExponent (fullMantissa n) ((n.log2 : Int) - 52) ((place : Int) - 52) =
      (n * 2 ^ (52 - place), (place : Int) - 52) := by
  have top := log2_le_of_lt positive exact
  have shift : ((n.log2 : Int) - 52 - ((place : Int) - 52)).toNat = n.log2 - place := by omega
  have zeros : 52 - n.log2 + (n.log2 - place) = 52 - place := by omega
  have exponent : (n.log2 : Int) - 52 - (n.log2 - place : Nat) = place - 52 := by omega
  rw [decreaseExponent, shift, Nat.shiftLeft_eq, fullMantissa, Nat.mul_assoc, ← Nat.pow_add, zeros,
    exponent]

theorem round_whole (sign : Sign) {n place : Nat} (positive : 0 < n) (exact : n < 2 ^ 53)
    (below : place ≤ n.log2) :
    UnpackedFloat.round Format.binary64 sign (n * 2 ^ (52 - place)) ((place : Int) - 52) =
      wholeParts sign n positive := by
  have top := log2_le_of_lt positive exact
  have target : Format.binary64.targetExponent
      (totalExponent (n * 2 ^ (52 - place)) ((place : Int) - 52)) = n.log2 - 52 := by
    rw [totalExponent, log2_mul_two_pow positive]
    show max (_ - 53) (-1074) = _
    omega
  have shift : ((place : Int) - 52 - ((n.log2 : Int) - 52)).toNat = 0 := by omega
  have kept : decreaseExponent (n * 2 ^ (52 - place)) ((place : Int) - 52) ((n.log2 : Int) - 52) =
      (n * 2 ^ (52 - place), (place : Int) - 52) := by
    rw [decreaseExponent, shift, Nat.shiftLeft_zero, Int.natCast_zero, Int.sub_zero]
  have zeros : n * 2 ^ (52 - place) = fullMantissa n * 2 ^ (n.log2 - place) := by
    rw [fullMantissa, Nat.mul_assoc, ← Nat.pow_add]
    exact congrArg (n * 2 ^ ·) (by omega)
  have exponent : (place : Int) - 52 = n.log2 - 52 - (n.log2 - place : Nat) := by omega
  have rounded := roundWithAccuracy_whole sign positive exact (n.log2 - place)
  rw [← zeros, ← exponent] at rounded
  unfold UnpackedFloat.round
  simp only [target, kept]
  exact rounded

/-- The sum of two positive counts: both have the last place of the smaller one, and rounding drops
the zeros behind the sum. -/
theorem add_wholeParts {m n : Nat} (positive : 0 < m) (positiveOther : 0 < n)
    (exact : m + n < 2 ^ 53) :
    UnpackedFloat.add Format.binary64 (wholeParts .positive m positive)
      (wholeParts .positive n positiveOther) =
        wholeParts .positive (m + n) (Nat.add_pos_left positive n) := by
  obtain ⟨place, least⟩ : ∃ place, place = min m.log2 n.log2 := ⟨_, rfl⟩
  have low : place ≤ m.log2 := by omega
  have lowOther : place ≤ n.log2 := by omega
  have smaller : min ((m.log2 : Int) - 52) ((n.log2 : Int) - 52) = place - 52 := by omega
  have first := decreaseExponent_whole positive (by omega) low
  have second := decreaseExponent_whole positiveOther (by omega) lowOther
  have below : place ≤ (m + n).log2 := by
    have reached : 2 ^ place ≤ m := (Nat.le_log2 positive.ne').mp low
    exact (Nat.le_log2 (by omega)).mpr (by omega)
  have sum : ((m * 2 ^ (52 - place) : Nat) : Int) + (n * 2 ^ (52 - place) : Nat) =
      ((m + n) * 2 ^ (52 - place) : Nat) := by
    rw [Nat.add_mul, Int.natCast_add]
  have compared : compare (((m + n) * 2 ^ (52 - place) : Nat) : Int) 0 = .gt :=
    Int.compare_eq_gt.mpr (Int.natCast_pos.mpr (Nat.mul_pos (by omega) (Nat.two_pow_pos _)))
  unfold wholeParts UnpackedFloat.add
  simp only [smaller, first, second, Sign.apply, sum]
  unfold UnpackedFloat.normalize
  simp only [compared, Int.toNat_natCast]
  exact round_whole .positive (Nat.add_pos_left positive n) exact below

theorem ofNat_add {m n : Nat} (exact : m + n < 2 ^ 53) :
    Float.ofNat m + Float.ofNat n = Float.ofNat (m + n) := by
  have zero : (Float.ofNat 0).toModel.unpack = .zero .positive := rfl
  show Float.ofModel (.pack (UnpackedFloat.add Format.binary64 (Float.ofNat m).toModel.unpack
    (Float.ofNat n).toModel.unpack)) = _
  rcases Nat.eq_zero_or_pos m with rfl | positive <;>
    rcases Nat.eq_zero_or_pos n with rfl | positiveOther
  · decide +kernel
  · rw [zero, unpack_ofNat positiveOther (by omega), Nat.zero_add,
      ofNat_eq_pack positiveOther (by omega)]
    rfl
  · rw [zero, unpack_ofNat positive (by omega), Nat.add_zero,
      ofNat_eq_pack positive (by omega)]
    rfl
  · rw [unpack_ofNat positive (by omega), unpack_ofNat positiveOther (by omega),
      add_wholeParts positive positiveOther exact, ofNat_eq_pack _ exact]

end Number

end Hati
