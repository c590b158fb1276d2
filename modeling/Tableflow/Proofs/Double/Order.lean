import Tableflow.Proofs.Double.Quotient

/-!
# Doubles between zero and one

The words of the doubles strictly between zero and one are those between the words of zero and one
(`isProperFraction_iff`): the hardware's comparisons hold of no not-a-number, no infinity, no
negative number and neither zero. The hardware compares numbers taken apart, so that a word is taken
apart first: a finite one is its sign, mantissa and exponent as `Double.binary` tells them
(`unpacked_of_isFinite`).
-/

namespace Tableflow.Double

open Float.Model (UnpackedFloat)
open Float.Model.UnpackedFloat

variable {x : Double}

/-! ## Words taken apart -/

/-- The sign of a word. -/
def sign (x : Double) : Sign := if x.isNegative then .negative else .positive

theorem toNat_unpackMantissa (x : Double) :
    (@unpackMantissa .binary64 x.bits.toBitVec).toNat = x.magnitude % normalMantissa := by
  rw [unpackMantissa_def, BitVec.extractLsb'_toNat, Nat.shiftRight_zero]
  simp only [magnitude, normalMantissa, UInt64.toNat_toBitVec]
  omega

theorem ofBitVec_unpackSign (x : Double) :
    Sign.ofBitVec (@unpackSign .binary64 x.bits.toBitVec) = x.sign := by
  have hsign : (@unpackSign .binary64 x.bits.toBitVec).toNat = x.bits.toNat / 2 ^ 63 % 2 := by
    rw [unpackSign_def, BitVec.extractLsb'_toNat, Nat.shiftRight_eq_div_pow]
    rfl
  have hlt : x.bits.toNat < 2 ^ 64 := x.bits.toNat_lt
  have hzero : @unpackSign .binary64 x.bits.toBitVec = 0#1 ↔ ¬ x.isNegative := by
    rw [← BitVec.toNat_inj, hsign, isNegative, decide_eq_true_eq, BitVec.toNat_zero]
    omega
  simp only [Sign.ofBitVec, sign, hzero, ite_not]

theorem unpacked_of_isZero (h : x.isZero) : x.unpacked = .zero x.sign := by
  have hmagnitude : x.magnitude = 0 := by simpa [isZero] using h
  have hexponent : @unpackExponent .binary64 x.bits.toBitVec = 0#11 := by
    rw [← BitVec.toNat_inj, toNat_unpackExponent, exponentField, hmagnitude]
    rfl
  have hmantissa : @unpackMantissa .binary64 x.bits.toBitVec = 0#52 := by
    rw [← BitVec.toNat_inj, toNat_unpackMantissa, hmagnitude]
    rfl
  have hlast : (0#11 : BitVec 11) ≠ -1#11 := by decide
  rw [unpacked, UnpackedFloat.unpack]
  simp only [hexponent, if_neg hlast, if_true, hmantissa, dif_pos, ofBitVec_unpackSign]

/-- A finite number but zero is its mantissa with its exponent. -/
theorem unpacked_of_isFinite (h : x.isFinite) (hzero : x.isZero = false) :
    ∃ hm, x.unpacked = .finite x.sign x.binary.mantissa x.binary.exponent hm := by
  have hlast : @unpackExponent .binary64 x.bits.toBitVec ≠ -1#11 := (unpackExponent_ne_iff x).2 h
  have hmantissa := toNat_unpackMantissa x
  by_cases hfield : x.exponentField = 0
  · have hfirst : @unpackExponent .binary64 x.bits.toBitVec = 0#11 := by
      rwa [← BitVec.toNat_inj, toNat_unpackExponent]
    have hpositive : 0 < x.magnitude % normalMantissa := by
      have hmagnitude : x.magnitude ≠ 0 := by simpa [isZero] using hzero
      simp only [exponentField, normalMantissa] at hfield ⊢
      omega
    have hne : @unpackMantissa .binary64 x.bits.toBitVec ≠ 0#52 := by
      rw [← BitVec.toNat_inj.ne, hmantissa]
      exact hpositive.ne'
    have hbinary : x.binary = ⟨x.magnitude % normalMantissa, minExponent⟩ := if_pos hfield
    rw [unpacked, UnpackedFloat.unpack, hbinary]
    simp only [if_neg hlast, if_pos hfirst, dif_neg hne, ofBitVec_unpackSign, hmantissa,
      toNat_unpackExponent, hfield]
    exact ⟨hpositive, rfl⟩
  · have hfirst : @unpackExponent .binary64 x.bits.toBitVec ≠ 0#11 := by
      rwa [← BitVec.toNat_inj.ne, toNat_unpackExponent]
    have hfraction := (@unpackMantissa .binary64 x.bits.toBitVec).isLt
    have hdigits : (1#1 ++ @unpackMantissa .binary64 x.bits.toBitVec).toNat =
        normalMantissa + x.magnitude % normalMantissa := by
      rw [BitVec.toNat_append, ← Nat.shiftLeft_add_eq_or_of_lt hfraction, hmantissa]
      rfl
    have hbinary : x.binary = ⟨normalMantissa + x.magnitude % normalMantissa,
      (x.exponentField : Int) - 1 + minExponent⟩ := if_neg hfield
    have hexponent : (x.exponentField : Int) - 1 + minExponent = x.exponentField - 1075 := by
      rw [minExponent]
      omega
    rw [unpacked, UnpackedFloat.unpack, hbinary, hexponent]
    simp only [if_neg hlast, if_neg hfirst, ofBitVec_unpackSign, hdigits, toNat_unpackExponent]
    exact ⟨Nat.add_pos_left (by decide) _, rfl⟩

theorem unpacked_of_not_isFinite (h : x.isFinite = false) :
    x.unpacked = .notANumber ∨ x.unpacked = .infinity x.sign := by
  have hlast : @unpackExponent .binary64 x.bits.toBitVec = -1#11 := by
    by_contra hne
    exact absurd ((unpackExponent_ne_iff x).1 hne) (by simp [h])
  rw [unpacked, UnpackedFloat.unpack]
  simp only [if_pos hlast, ofBitVec_unpackSign]
  split
  · exact .inr rfl
  · exact .inl rfl

/-! ## The order -/

/-- Words are compared through the numbers that they are unpacked to, which for not-a-numbers is a
second word's. -/
theorem toFloat_lt_iff {x y : Double} : x.toFloat < y.toFloat ↔
    (packed x.unpacked).unpacked.lt (packed y.unpacked).unpacked = true := by
  change decide _ = true ↔ _
  exact decide_eq_true_iff

/-- The proper fractions are the positive words of a smaller magnitude than one. -/
theorem isProperFraction_iff_magnitude (x : Double) : x.isProperFraction ↔
    x.isNegative = false ∧ 0 < x.magnitude ∧ x.magnitude < one.magnitude := by
  have hone : one.bits.toNat = 0x3ff0000000000000 := rfl
  have hmagnitude : one.magnitude = 0x3ff0000000000000 := rfl
  have hlt := x.bits.toNat_lt
  simp only [isProperFraction, Bool.and_eq_true, decide_eq_true_eq, UInt64.lt_iff_toNat_lt, hone,
    UInt64.toNat_zero, isNegative, decide_eq_false_iff_not, hmagnitude]
  simp only [magnitude]
  omega

/-- A positive number is less than one just if its word is. -/
theorem magnitude_lt_one_iff (x : Double) : x.magnitude < one.magnitude ↔
    x.binary.exponent < -52 ∨ x.binary.exponent = -52 ∧ x.binary.mantissa < 2 ^ 52 := by
  have hone : one.magnitude = 0x3ff0000000000000 := rfl
  rw [hone, binary]
  split <;> simp only [normalMantissa, minExponent] at * <;> omega

/-- A double strictly between zero and one, as the hardware compares numbers. -/
def BetweenZeroAndOne (x : Double) : Prop := zero.toFloat < x.toFloat ∧ x.toFloat < one.toFloat

/-- The order of the words tells which numbers lie strictly between zero and one. -/
theorem isProperFraction_iff (x : Double) : x.isProperFraction ↔ x.BetweenZeroAndOne := by
  have hone : (packed one.unpacked).unpacked = .finite .positive (2 ^ 52) (-52) (by decide) := rfl
  have hzero : (packed zero.unpacked).unpacked = .zero .positive := rfl
  rw [BetweenZeroAndOne, toFloat_lt_iff, toFloat_lt_iff, hone, hzero,
    isProperFraction_iff_magnitude]
  by_cases hfinite : x.isFinite
  · rw [packed_unpacked hfinite]
    by_cases hx : x.isZero
    · have hmagnitude : x.magnitude = 0 := by simpa [isZero] using hx
      rw [unpacked_of_isZero hx]
      simp [UnpackedFloat.lt, UnpackedFloat.compare, hmagnitude]
    · have hpositive : 0 < x.magnitude := by simpa [isZero, Nat.pos_iff_ne_zero] using hx
      obtain ⟨hm, hunpacked⟩ := unpacked_of_isFinite hfinite (by simpa using hx)
      rw [hunpacked]
      cases hsign : x.isNegative with
      | true => simp [UnpackedFloat.lt, UnpackedFloat.compare, sign, hsign]
      | false =>
        simp [UnpackedFloat.lt, UnpackedFloat.compare, sign, hsign, hpositive, Ordering.then_eq_lt,
          magnitude_lt_one_iff, Int.compare_eq_lt, Nat.compare_eq_lt]
  · have hlarge : ¬ x.magnitude < one.magnitude := by
      have hle : one.magnitude ≤ infinityBits.toNat := by decide
      have hmagnitude : ¬ x.magnitude < infinityBits.toNat := by simpa [isFinite] using hfinite
      omega
    rcases unpacked_of_not_isFinite (by simpa using hfinite) with h | h
    · have hnot : (packed .notANumber).unpacked = .notANumber := rfl
      rw [h, hnot]
      simp [UnpackedFloat.lt, UnpackedFloat.compare, hlarge]
    · have hinfinity (s : Sign) : (packed (.infinity s)).unpacked = .infinity s := by
        cases s <;> rfl
      rw [h, hinfinity]
      cases x.sign <;> simp [UnpackedFloat.lt, UnpackedFloat.compare, hlarge]

end Tableflow.Double
