import Hati.Serialization
import Mathlib

namespace Hati

/-!
# Whole numbers among the floating-point numbers

A whole number below two to the 53rd is a floating-point number, and converting it gives that
number and no neighbour.  So a number whose exact value is whole is found again after it was
turned into a whole number and back, up to the sign of zero.

The comparison of floating-point numbers looks at mantissas and exponents.  Both sides are
therefore brought to the one form that a whole number has, with a mantissa of 53 places.
-/

open Float.Model Float.Model.UnpackedFloat

/-! ## The bits of a number -/

namespace Dyadic

/-- The sign bit, as the model of floating-point numbers has it. -/
def sign (exact : Dyadic) : Sign :=
  if exact.isNegative then .negative else .positive

/-- The number with its sign, mantissa and exponent apart. -/
def unpacked (exact : Dyadic) : UnpackedFloat :=
  if isZero : exact.mantissa = 0 then .zero exact.sign
  else .finite exact.sign exact.mantissa exact.exponent (Nat.pos_of_ne_zero isZero)

/-- What every exact value of a number has: at most 53 places, and fewer only with the
smallest exponent. -/
structure IsCanonical (exact : Dyadic) : Prop where
  fits : exact.mantissa < 2 ^ 53
  full : 2 ^ 52 ≤ exact.mantissa ∨ exact.exponent = -1074

private theorem toNat_unpackMantissa (bits : BitVec 64) :
    (@unpackMantissa Format.binary64 bits).toNat = bits.toNat % 2 ^ 52 := by
  simp [unpackMantissa, BitVec.extractLsb]

private theorem toNat_unpackExponent (bits : BitVec 64) :
    (@unpackExponent Format.binary64 bits).toNat = bits.toNat / 2 ^ 52 % 2 ^ 11 := by
  simp [unpackExponent, BitVec.extractLsb, Nat.shiftRight_eq_div_pow]

private theorem toNat_unpackSign (bits : BitVec 64) :
    (@unpackSign Format.binary64 bits).toNat = bits.toNat / 2 ^ 63 % 2 := by
  simp [unpackSign, BitVec.extractLsb, Nat.shiftRight_eq_div_pow]

private theorem toNat_implicitBit (fraction : BitVec 52) :
    (1#1 ++ fraction).toNat = fraction.toNat + 2 ^ 52 := by
  rw [BitVec.toNat_append, ← Nat.shiftLeft_add_eq_or_of_lt fraction.isLt, Nat.add_comm]
  simp [Nat.shiftLeft_eq]

theorem ofFloat?_canonical {x : Float} {exact : Dyadic} (finite : ofFloat? x = some exact) :
    exact.IsCanonical := by
  have small : x.toBits.toNat % 2 ^ 52 < 2 ^ 52 := Nat.mod_lt _ (by decide)
  unfold ofFloat? at finite
  simp only [Nat.pow_eq] at finite
  split at finite
  · cases finite
  · split at finite <;> cases finite
    · exact ⟨by dsimp only; omega, .inr rfl⟩
    · exact ⟨by dsimp only; omega, .inl (Nat.le_add_left _ _)⟩

private theorem eq_neg_one_iff (field : BitVec 11) : field = -1#_ ↔ field.toNat = 2047 := by
  rw [← BitVec.toNat_inj]
  rfl

private theorem ofBitVec_eq (bit : BitVec 1) :
    Sign.ofBitVec bit = if bit.toNat == 1 then .negative else .positive := by
  unfold Sign.ofBitVec
  rcases BitVec.eq_zero_or_eq_one bit with zero | one
  · rw [zero]
    rfl
  · rw [one]
    rfl

/-- The exact value of a number is what its bits are unpacked to. -/
theorem unpack_eq {x : Float} {exact : Dyadic} (finite : ofFloat? x = some exact) :
    x.toModel.unpack = exact.unpacked := by
  have fraction := toNat_unpackMantissa x.toBits.toBitVec
  have field := toNat_unpackExponent x.toBits.toBitVec
  have sign := toNat_unpackSign x.toBits.toBitVec
  have bits : x.toBits.toBitVec.toNat = x.toBits.toNat := rfl
  rw [bits] at fraction field sign
  unfold ofFloat? at finite
  simp only [Nat.pow_eq, ← fraction, ← field, ← sign, beq_iff_eq] at finite
  show UnpackedFloat.unpack Format.binary64 x.toBits.toBitVec = _
  unfold UnpackedFloat.unpack
  simp only [eq_neg_one_iff, ofBitVec_eq, ← BitVec.toNat_inj (y := 0#_), BitVec.toNat_ofNat,
    Nat.zero_mod]
  split at finite
  · cases finite
  · rename_i proper
    rw [if_neg proper]
    split at finite <;> cases finite
    · rename_i subnormal
      rw [if_pos subnormal, subnormal]
      unfold unpacked Dyadic.sign
      simp only [beq_iff_eq]
      split <;> rfl
    · rename_i normal
      rw [if_neg normal]
      unfold unpacked Dyadic.sign
      simp only [toNat_implicitBit, beq_iff_eq]
      rw [dif_neg (by omega)]
      rfl

/-- What has an exact value is finite. -/
theorem isNaN_isInf_eq_false {x : Float} {exact : Dyadic} (finite : ofFloat? x = some exact) :
    x.isNaN = false ∧ x.isInf = false := by
  show x.toModel.unpack.isNaN = false ∧ x.toModel.unpack.isInf = false
  rw [unpack_eq finite, unpacked]
  split <;> exact ⟨rfl, rfl⟩

/-- What is unpacked to a mantissa and an exponent has an exact value. -/
theorem exists_of_unpack {x : Float} {sign : Sign} {mantissa : Nat} {exponent : Int}
    {positive : 0 < mantissa}
    (unpacks : x.toModel.unpack = .finite sign mantissa exponent positive) :
    ∃ exact, ofFloat? x = some exact := by
  have field := toNat_unpackExponent x.toBits.toBitVec
  have bits : x.toBits.toBitVec.toNat = x.toBits.toNat := rfl
  have proper : x.toBits.toNat / 2 ^ 52 % 2 ^ 11 ≠ 2047 := by
    intro infinite
    rw [bits, infinite] at field
    change UnpackedFloat.unpack Format.binary64 x.toBits.toBitVec = _ at unpacks
    unfold UnpackedFloat.unpack at unpacks
    simp only [eq_neg_one_iff, field, if_true] at unpacks
    split at unpacks <;> cases unpacks
  unfold ofFloat?
  simp only [Nat.pow_eq, beq_iff_eq, if_neg proper]
  split <;> exact ⟨_, rfl⟩

end Dyadic

namespace Number

/-! ## The form of a whole number -/

/-- The mantissa that a positive whole number has once its first place is the highest. -/
def fullMantissa (n : Nat) : Nat :=
  n * 2 ^ (52 - n.log2)

theorem log2_le_of_lt {n : Nat} (positive : 0 < n) (exact : n < 2 ^ 53) : n.log2 ≤ 52 :=
  Nat.le_of_lt_succ ((Nat.log2_lt positive.ne').mpr exact)

theorem log2_mul_two_pow {n : Nat} (positive : 0 < n) (k : Nat) :
    (n * 2 ^ k).log2 = n.log2 + k := by
  induction k with
  | zero => rw [Nat.pow_zero, Nat.mul_one, Nat.add_zero]
  | succ k ih =>
      rw [Nat.pow_succ, ← Nat.mul_assoc, Nat.mul_comm _ 2, Nat.log2_two_mul, ih, Nat.add_assoc]
      exact (Nat.mul_pos positive (Nat.two_pow_pos k)).ne'

theorem log2_fullMantissa {n : Nat} (positive : 0 < n) (exact : n < 2 ^ 53) :
    (fullMantissa n).log2 = 52 := by
  have top := log2_le_of_lt positive exact
  rw [fullMantissa, log2_mul_two_pow positive]
  omega

theorem fullMantissa_pos {n : Nat} (positive : 0 < n) : 0 < fullMantissa n :=
  Nat.mul_pos positive (Nat.two_pow_pos _)

/-- A positive whole number with a sign. -/
def wholeParts (sign : Sign) (n : Nat) (positive : 0 < n) : UnpackedFloat :=
  .finite sign (fullMantissa n) (n.log2 - 52) (fullMantissa_pos positive)

/-! ## Packing -/

theorem unpackSign_packComponents {spec : Format} (sign : Sign)
    (exponent : BitVec spec.exponentBits) (mantissa : BitVec spec.mantissaBitsWithoutImplicit) :
    unpackSign (packComponents spec sign exponent mantissa) = sign.toBitVec := by
  apply BitVec.eq_of_getLsbD_eq
  intro i first
  obtain rfl : i = 0 := by omega
  simp [unpackSign, packComponents, BitVec.getLsbD_append, BitVec.getElem_append]

private theorem ofBitVec_toBitVec (sign : Sign) : Sign.ofBitVec sign.toBitVec = sign := by
  cases sign <;> rfl

/-- A number whose mantissa is full is packed without loss. -/
theorem unpack_pack {sign : Sign} {mantissa : Nat} {exponent : Int} (positive : 0 < mantissa)
    (full : mantissa.log2 = 52) (low : -1074 ≤ exponent) (high : exponent ≤ 0) :
    (Float.Model.pack (.finite sign mantissa exponent positive)).unpack =
      .finite sign mantissa exponent positive := by
  have lower : 2 ^ 52 ≤ mantissa := full ▸ Nat.log2_self_le positive.ne'
  have upper : mantissa < 2 ^ 53 := (Nat.log2_lt positive.ne').mp (by omega)
  obtain ⟨biased, shifted⟩ : ∃ biased : Nat, (biased : Int) = exponent + 1075 :=
    ⟨(exponent + 1075).toNat, Int.toNat_of_nonneg (by omega)⟩
  have packed : UnpackedFloat.pack Format.binary64 (.finite sign mantissa exponent positive) =
      packComponents Format.binary64 sign (BitVec.ofNat 11 biased) (BitVec.ofNat 52 mantissa) := by
    have field : (exponent + (Format.binary64.exponentBias : Int) + (52 : Nat)).toNat = biased := by
      simp only [Format.exponentBias]
      omega
    have finite : ¬ 2 ^ 11 ≤ biased + 1 := by omega
    have normal : mantissa.log2 + 1 = Format.binary64.mantissaBits := by
      rw [full]
      rfl
    unfold UnpackedFloat.pack
    simp only [field, normal, if_neg finite, if_true]
  have field : (BitVec.ofNat 11 biased).toNat = biased := by
    rw [BitVec.toNat_ofNat, Nat.mod_eq_of_lt (by omega)]
  show UnpackedFloat.unpack Format.binary64
    (UnpackedFloat.pack Format.binary64 (.finite sign mantissa exponent positive)) = _
  rw [packed]
  unfold UnpackedFloat.unpack
  simp only [unpackMantissa_packComponents, unpackExponent_packComponents,
    unpackSign_packComponents, ofBitVec_toBitVec, Dyadic.eq_neg_one_iff, Dyadic.toNat_implicitBit,
    ← BitVec.toNat_inj (y := 0#_), field, BitVec.toNat_ofNat]
  rw [if_neg (by omega), if_neg (by omega)]
  have fraction : mantissa % 2 ^ 52 + 2 ^ 52 = mantissa := by omega
  have unbiased : (biased : Int) - ((1023 : Nat) + (52 : Nat)) = exponent := by omega
  simp only [fraction]
  congr

theorem unpack_pack_wholeParts (sign : Sign) {n : Nat} (positive : 0 < n) (exact : n < 2 ^ 53) :
    (Float.Model.pack (wholeParts sign n positive)).unpack = wholeParts sign n positive := by
  have top := log2_le_of_lt positive exact
  exact unpack_pack (fullMantissa_pos positive) (log2_fullMantissa positive exact) (by omega)
    (by omega)

/-! ## Rounding -/

/-- Dropping zeros behind a mantissa loses nothing. -/
private theorem shiftRight_exact (mantissa places : Nat) :
    (ExtendedMantissa.mk (mantissa * 2 ^ places) false false >>> places) =
      ⟨mantissa, false, false⟩ := by
  show places.repeat ExtendedMantissa.shiftRightOne _ = _
  induction places generalizing mantissa with
  | zero => simp [Nat.repeat]
  | succ places ih =>
      have doubled : mantissa * 2 ^ (places + 1) = (2 * mantissa) * 2 ^ places := by
        rw [Nat.pow_succ', ← Nat.mul_assoc, Nat.mul_comm mantissa 2]
      rw [Nat.repeat, doubled, ih]
      simp [ExtendedMantissa.shiftRightOne]

private theorem targetExponent_eq (total : Int) :
    Format.binary64.targetExponent total = max (total - 53) (-1074) := rfl

/-- Rounding drops the zeros behind the mantissa of a whole number, and nothing else. -/
theorem roundWithAccuracy_whole (sign : Sign) {n : Nat} (positive : 0 < n) (exact : n < 2 ^ 53)
    (places : Nat) :
    roundWithAccuracy Format.binary64 sign (fullMantissa n * 2 ^ places)
      ((n.log2 : Int) - 52 - places) .exact = wholeParts sign n positive := by
  have full := log2_fullMantissa positive exact
  have some := fullMantissa_pos positive
  have behind : Format.binary64.targetExponent
      (totalExponent (fullMantissa n * 2 ^ places) (n.log2 - 52 - places)) -
        (n.log2 - 52 - places) = places := by
    rw [totalExponent, log2_mul_two_pow some, full, targetExponent_eq]
    omega
  have none : Format.binary64.targetExponent (totalExponent (fullMantissa n) (n.log2 - 52)) -
      (n.log2 - 52) = 0 := by
    rw [totalExponent, full, targetExponent_eq]
    omega
  have once : shiftToTargetExponent Format.binary64 (fullMantissa n * 2 ^ places)
      (n.log2 - 52 - places) .exact = (⟨fullMantissa n, false, false⟩, (n.log2 : Int) - 52) := by
    simp only [shiftToTargetExponent, shiftToExponent, behind, Int.toNat_natCast,
      ExtendedMantissa.ofMantissaAndAccuracy, shiftRight_exact, Int.sub_add_cancel]
  have again : shiftToTargetExponent Format.binary64 (fullMantissa n) (n.log2 - 52) .exact =
      (⟨fullMantissa n, false, false⟩, (n.log2 : Int) - 52) := by
    simp only [shiftToTargetExponent, shiftToExponent, none, Int.toNat_zero,
      ExtendedMantissa.ofMantissaAndAccuracy]
    exact Prod.ext rfl (Int.add_zero _)
  have rounded : (ExtendedMantissa.mk (fullMantissa n) false false).roundedMantissa =
      fullMantissa n := rfl
  simp only [roundWithAccuracy, once, rounded, again, dif_neg some.ne']
  rfl

/-! ## Converting whole numbers -/

theorem unpack_toFloat {n : Nat} (positive : 0 < n) (exact : n < 2 ^ 53) :
    n.toUInt64.toFloat.toModel.unpack = wholeParts .positive n positive := by
  have top := log2_le_of_lt positive exact
  have whole : n.toUInt64.toNat = n := by
    rw [UInt64.toNat_ofNat']
    exact Nat.mod_eq_of_lt (by omega)
  have rounded : UnpackedFloat.ofUInt64 Format.binary64 n.toUInt64 =
      wholeParts .positive n positive := by
    have compared : compare (n : Int) 0 = .gt := Int.compare_eq_gt.mpr (by omega)
    have places : (0 - Format.binary64.targetExponent (totalExponent n 0)).toNat = 52 - n.log2 := by
      rw [totalExponent, targetExponent_eq]
      omega
    simp only [UnpackedFloat.ofUInt64, UnpackedFloat.ofNat, UnpackedFloat.ofInt, whole,
      UnpackedFloat.normalize, compared, Int.toNat_natCast, UnpackedFloat.round, decreaseExponent,
      places, Nat.shiftLeft_eq]
    have kept := roundWithAccuracy_whole .positive positive exact 0
    have exponents : (0 : Int) - ((52 - n.log2 : Nat) : Int) = (n.log2 : Int) - 52 - (0 : Nat) := by
      omega
    rw [Nat.pow_zero, Nat.mul_one] at kept
    rw [exponents]
    exact kept
  show (Float.Model.pack (UnpackedFloat.ofUInt64 Format.binary64 n.toUInt64)).unpack = _
  rw [rounded]
  exact unpack_pack_wholeParts .positive positive exact

/-- A positive whole number is packed from its own parts. -/
theorem ofNat_eq_pack {n : Nat} (positive : 0 < n) (exact : n < 2 ^ 53) :
    Float.ofNat n = .ofModel (.pack (wholeParts .positive n positive)) := by
  have short : Float.ofNat n = n.toUInt64.toFloat * Float.ofBits 0x3FF0000000000000 := by
    show Float.ofScientific n false 0 = _
    unfold Float.ofScientific
    rw [dif_pos ⟨exact, Nat.zero_le _⟩]
    rfl
  have one : (Float.ofBits 0x3FF0000000000000).toModel.unpack =
      .finite .positive (2 ^ 52) (-52) (Nat.two_pow_pos 52) := rfl
  have product : UnpackedFloat.mul Format.binary64 (wholeParts .positive n positive)
      (.finite .positive (2 ^ 52) (-52) (Nat.two_pow_pos 52)) = wholeParts .positive n positive :=
    roundWithAccuracy_whole .positive positive exact 52
  rw [short]
  show Float.ofModel (.pack (UnpackedFloat.mul Format.binary64 n.toUInt64.toFloat.toModel.unpack
    (Float.ofBits 0x3FF0000000000000).toModel.unpack)) = _
  rw [unpack_toFloat positive exact, one, product]

theorem unpack_ofNat {n : Nat} (positive : 0 < n) (exact : n < 2 ^ 53) :
    (Float.ofNat n).toModel.unpack = wholeParts .positive n positive := by
  rw [ofNat_eq_pack positive exact]
  exact unpack_pack_wholeParts .positive positive exact

/-- The sign of a whole number other than zero. -/
def signOf (n : Int) : Sign :=
  if n < 0 then .negative else .positive

theorem unpack_ofInt {n : Int} (nonzero : 0 < n.natAbs) (exact : n.natAbs < 2 ^ 53) :
    (Float.ofInt n).toModel.unpack = wholeParts (signOf n) n.natAbs nonzero := by
  cases n with
  | ofNat n =>
      have sign : signOf (.ofNat n) = .positive := if_neg (Int.not_lt.mpr (Int.natCast_nonneg n))
      rw [sign]
      exact unpack_ofNat nonzero exact
  | negSucc n =>
      have sign : signOf (.negSucc n) = .negative := if_pos (Int.negSucc_lt_zero n)
      rw [sign]
      show (Float.Model.pack (Float.ofNat (n + 1)).toModel.unpack.neg).unpack = _
      rw [unpack_ofNat (Nat.succ_pos n) exact]
      exact unpack_pack_wholeParts .negative nonzero exact

/-! ## Numbers with a whole value -/

/-- The number is exactly this whole number; both zeros are zero. -/
def IsWhole (x : Float) (n : Int) : Prop :=
  ∃ exact, Dyadic.ofFloat? x = some exact ∧
    exact.numerator = n.natAbs * exact.denominator ∧ n = exact.signed n.natAbs

theorem isWhole_zero {x : Float} {isNegative : Bool} {exponent : Int}
    (finite : Dyadic.ofFloat? x = some ⟨isNegative, 0, exponent⟩) : IsWhole x 0 := by
  refine ⟨_, finite, by simp [Dyadic.numerator], ?_⟩
  cases isNegative <;> rfl

/-- A whole number has only one canonical form. -/
theorem canonical_parts {exact : Dyadic} (canonical : exact.IsCanonical) {n : Nat}
    (positive : 0 < n) (small : n < 2 ^ 53) (value : exact.numerator = n * exact.denominator) :
    exact.mantissa = fullMantissa n ∧ exact.exponent = n.log2 - 52 := by
  obtain ⟨fits, full⟩ := canonical
  have top := log2_le_of_lt positive small
  simp only [Dyadic.numerator, Dyadic.denominator, Nat.pow_eq] at value
  rcases Int.le_total exact.exponent 0 with low | high
  · obtain ⟨places, shifted⟩ : ∃ places : Nat, exact.exponent = -places :=
      ⟨(-exact.exponent).toNat, by omega⟩
    have mantissa : exact.mantissa = n * 2 ^ places := by
      simpa [shifted] using value
    have few : places < 53 := by
      refine (Nat.pow_lt_pow_iff_right (by decide)).mp (Nat.lt_of_le_of_lt ?_ fits)
      exact mantissa ▸ Nat.le_mul_of_pos_left _ positive
    have lower : 2 ^ 52 ≤ exact.mantissa := full.resolve_right (by omega)
    have log : exact.mantissa.log2 = 52 := by
      have least := (Nat.le_log2 (by omega)).mpr lower
      have most := (Nat.log2_lt (by omega)).mpr fits
      omega
    have places_eq : places = 52 - n.log2 := by
      rw [mantissa, log2_mul_two_pow positive] at log
      omega
    exact ⟨by rw [mantissa, fullMantissa, places_eq], by omega⟩
  · have lower : 2 ^ 52 ≤ exact.mantissa := full.resolve_right (by omega)
    obtain ⟨places, shifted⟩ : ∃ places : Nat, exact.exponent = places :=
      ⟨exact.exponent.toNat, by omega⟩
    have number : exact.mantissa * 2 ^ places = n := by
      simpa [shifted] using value
    cases places with
    | zero =>
        have same : exact.mantissa = n := by simpa using number
        have log : n.log2 = 52 := by
          have least := (Nat.le_log2 (same ▸ by omega)).mpr (same ▸ lower)
          omega
        exact ⟨by rw [fullMantissa, log]; simpa using same, by omega⟩
    | succ places =>
        have two : 2 ^ 1 ≤ 2 ^ (places + 1) := Nat.pow_le_pow_right (by decide) (by omega)
        have large : 2 ^ 52 * 2 ^ 1 ≤ n := number ▸ Nat.mul_le_mul lower two
        omega

theorem canonical_zero {exact : Dyadic} (value : exact.numerator = 0) : exact.mantissa = 0 :=
  (Nat.mul_eq_zero.mp value).resolve_right (Nat.two_pow_pos _).ne'

/-- The sign of a number that is a whole number other than zero. -/
theorem sign_eq {exact : Dyadic} {n : Int} (nonzero : 0 < n.natAbs)
    (signed : n = exact.signed n.natAbs) : exact.sign = signOf n := by
  unfold Dyadic.signed at signed
  unfold Dyadic.sign signOf
  split at signed
  · rw [if_pos ‹_›, if_pos (by omega)]
  · rw [if_neg ‹_›, if_neg (by omega)]

/-- A number has the form of its whole value. -/
theorem IsWhole.unpack {x : Float} {n : Int} (whole : IsWhole x n) (nonzero : 0 < n.natAbs)
    (small : n.natAbs < 2 ^ 53) : x.toModel.unpack = wholeParts (signOf n) n.natAbs nonzero := by
  obtain ⟨exact, finite, value, signed⟩ := whole
  obtain ⟨mantissa, exponent⟩ :=
    canonical_parts (Dyadic.ofFloat?_canonical finite) nonzero small value
  have some := fullMantissa_pos nonzero
  rw [Dyadic.unpack_eq finite, Dyadic.unpacked, dif_neg (by omega), wholeParts]
  simp only [mantissa, exponent, sign_eq nonzero signed]

theorem IsWhole.unpack_zero {x : Float} (whole : IsWhole x 0) :
    ∃ sign, x.toModel.unpack = .zero sign := by
  obtain ⟨exact, finite, value, -⟩ := whole
  refine ⟨exact.sign, ?_⟩
  rw [Dyadic.unpack_eq finite, Dyadic.unpacked, dif_pos (canonical_zero (by simpa using value))]

/-- A whole value converts back to an equal number. -/
theorem ofInt_beq {x : Float} {n : Int} (whole : IsWhole x n) (small : n.natAbs < 2 ^ 53) :
    (Float.ofInt n == x) = true := by
  show ((Float.ofInt n).toModel.unpack.compare x.toModel.unpack == some .eq) = true
  rcases Nat.eq_zero_or_pos n.natAbs with zero | nonzero
  · obtain rfl : n = 0 := Int.natAbs_eq_zero.mp zero
    obtain ⟨sign, unpacked⟩ := whole.unpack_zero
    rw [unpacked]
    rfl
  · rw [unpack_ofInt nonzero small, whole.unpack nonzero small]
    unfold wholeParts
    cases signOf n <;> simp [UnpackedFloat.compare]

theorem IsWhole.truncate {x : Float} {n : Int} (whole : IsWhole x n) (small : n.natAbs < 2 ^ 53) :
    truncate x = n := by
  obtain ⟨exact, finite, value, signed⟩ := whole
  have quotient : exact.whole = n.natAbs := by
    rw [Dyadic.whole, value]
    exact Nat.mul_div_cancel _ (Nat.two_pow_pos _)
  have bound : wordBound 64 = 9223372036854775808 := rfl
  simp only [Number.truncate, truncateTo, finite, quotient, ← signed, bound]
  omega

/-- The number that a whole number is converted to has that value. -/
theorem isWhole_ofInt {n : Int} (small : n.natAbs < 2 ^ 53) : IsWhole (Float.ofInt n) n := by
  rcases Nat.eq_zero_or_pos n.natAbs with zero | nonzero
  · obtain rfl : n = 0 := Int.natAbs_eq_zero.mp zero
    exact isWhole_zero rfl
  · have top := log2_le_of_lt nonzero small
    have unpacks := unpack_ofInt nonzero small
    obtain ⟨exact, finite⟩ := Dyadic.exists_of_unpack unpacks
    rw [Dyadic.unpack_eq finite, Dyadic.unpacked, wholeParts] at unpacks
    split at unpacks
    · cases unpacks
    · simp only [UnpackedFloat.finite.injEq] at unpacks
      obtain ⟨sign, mantissa, exponent⟩ := unpacks
      refine ⟨exact, finite, ?_, ?_⟩
      · have up : ((n.natAbs.log2 : Int) - 52).toNat = 0 := by omega
        have down : (-((n.natAbs.log2 : Int) - 52)).toNat = 52 - n.natAbs.log2 := by omega
        simp only [Dyadic.numerator, Dyadic.denominator, mantissa, exponent, fullMantissa, up, down,
          Nat.pow_eq, Nat.pow_zero, Nat.mul_one]
      · rw [Dyadic.sign, signOf] at sign
        by_cases below : n < 0 <;> cases minus : exact.isNegative <;>
          simp only [Dyadic.signed, below, minus, if_true, if_false, Bool.false_eq_true,
            reduceCtorEq] at sign ⊢ <;> omega

/-! ## The bound of whole numbers that are written as such -/

private theorem unpack_bound : (9.0e15 : Float).toModel.unpack =
    .finite .positive 9000000000000000 0 (by decide) := rfl

/-- A number is below the bound if its magnitude compares so. -/
private theorem abs_lt_bound {x : Float} {parts : UnpackedFloat}
    (magnitude : (Float.Model.pack x.toModel.unpack.abs).unpack = parts)
    (less : parts.compare (9.0e15 : Float).toModel.unpack = some .lt) : x.abs < 9.0e15 := by
  have model : x.abs.toModel.lt (9.0e15 : Float).toModel = true := by
    show ((Float.Model.pack x.toModel.unpack.abs).unpack.compare
      (9.0e15 : Float).toModel.unpack == some .lt) = true
    rw [magnitude, less]
    rfl
  exact decide_eq_true model

/-- A positive whole number below the bound compares so in its form. -/
private theorem compare_bound {n : Nat} (positive : 0 < n) (small : n < 9000000000000000) :
    (wholeParts .positive n positive).compare (9.0e15 : Float).toModel.unpack = some .lt := by
  have top := log2_le_of_lt positive (by omega)
  have order : (compare ((n.log2 : Int) - 52) 0).then
      (compare (fullMantissa n) 9000000000000000) = .lt := by
    rcases Nat.lt_or_eq_of_le top with below | highest
    · rw [Int.compare_eq_lt.mpr (by omega)]
      rfl
    · have same : fullMantissa n = n := by
        rw [fullMantissa, highest, Nat.sub_self, Nat.pow_zero, Nat.mul_one]
      rw [same, Nat.compare_eq_lt.mpr small, highest]
      rfl
  rw [unpack_bound]
  exact congrArg some order

theorem IsWhole.abs_lt {x : Float} {n : Int} (whole : IsWhole x n)
    (small : n.natAbs < 9000000000000000) : x.abs < 9.0e15 := by
  rcases Nat.eq_zero_or_pos n.natAbs with zero | nonzero
  · obtain rfl : n = 0 := Int.natAbs_eq_zero.mp zero
    obtain ⟨sign, unpacked⟩ := whole.unpack_zero
    have packed : (Float.Model.pack (.zero .positive)).unpack = .zero .positive := rfl
    have magnitude : (Float.Model.pack x.toModel.unpack.abs).unpack = .zero .positive := by
      rw [unpacked]
      exact packed
    refine abs_lt_bound magnitude ?_
    rw [unpack_bound]
    rfl
  · have unpacked := whole.unpack nonzero (by omega)
    have magnitude : (Float.Model.pack x.toModel.unpack.abs).unpack =
        wholeParts .positive n.natAbs nonzero := by
      rw [unpacked]
      exact unpack_pack_wholeParts .positive nonzero (by omega)
    exact abs_lt_bound magnitude (compare_bound nonzero small)

end Number

/-- A whole number below the bound is written as such. -/
theorem Value.numberToJson_whole {x : Float} {n : Int} (whole : Number.IsWhole x n)
    (small : n.natAbs < 9000000000000000) : numberToJson x = .int n := by
  obtain ⟨exact, finite, -⟩ := id whole
  obtain ⟨notNaN, notInf⟩ := Dyadic.isNaN_isInf_eq_false finite
  have below := decide_eq_true (whole.abs_lt small)
  have trunc := whole.truncate (by omega)
  have equal := Number.ofInt_beq whole (by omega)
  rw [numberToJson, notNaN, notInf, below, trunc, equal]
  rfl

end Hati
