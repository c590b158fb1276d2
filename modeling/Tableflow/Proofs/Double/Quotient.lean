import Mathlib
import Tableflow.Double.Binary

/-!
# Quotients of whole numbers

A quotient of two words is a finite double (`isFinite_ofNat_div`). A quotient is infinite only where
its exponent is out of range, and the double nearest to a word has an exponent near zero
(`exists_unpacked_ofNat`), of which division and its two roundings make one that is near zero too
(`moderate_div`).
-/

namespace Tableflow.Double

open Float.Model (Format UnpackedFloat totalExponent)
open Float.Model.UnpackedFloat

/-! ## The exponent of a word -/

/-- The exponent field of a word. -/
def exponentField (x : Double) : Nat := x.magnitude / normalMantissa

/-- The number of a word. -/
def unpacked (x : Double) : UnpackedFloat := unpack .binary64 x.bits.toBitVec

/-- The word of a number. -/
def packed (f : UnpackedFloat) : Double := ⟨⟨UnpackedFloat.pack .binary64 f⟩⟩

theorem toNat_unpackExponent (x : Double) :
    (@unpackExponent .binary64 x.bits.toBitVec).toNat = x.exponentField := by
  rw [unpackExponent_def, BitVec.extractLsb'_toNat, Nat.shiftRight_eq_div_pow]
  simp only [exponentField, magnitude, normalMantissa, UInt64.toNat_toBitVec]
  omega

theorem isFinite_iff {x : Double} : x.isFinite ↔ x.exponentField < 2047 := by
  rw [exponentField, Nat.div_lt_iff_lt_mul (by decide), isFinite, decide_eq_true_eq]
  rfl

theorem unpackExponent_ne_iff (x : Double) :
    @unpackExponent .binary64 x.bits.toBitVec ≠ -1#11 ↔ x.isFinite := by
  have hlt : x.exponentField < 2 ^ 11 := by
    rw [← toNat_unpackExponent]
    exact BitVec.isLt _
  rw [isFinite_iff, ← BitVec.toNat_inj.ne, toNat_unpackExponent]
  change x.exponentField ≠ 2047 ↔ _
  omega

/-- A finite word is what its number is packed into. -/
theorem packed_unpacked {x : Double} (h : x.isFinite) : packed x.unpacked = x := by
  have hnot : @isNaNBits .binary64 x.bits.toBitVec = false := by
    rw [isNaNBits, decide_eq_false_iff_not, not_and]
    exact fun hexponent => absurd hexponent ((unpackExponent_ne_iff x).2 h)
  rw [packed, unpacked, pack_unpack, hnot]
  rfl

theorem unpack_toFloat {x : Double} (h : x.isFinite) : x.toFloat.toModel.unpack = x.unpacked :=
  congrArg unpacked (packed_unpacked h)

theorem div_eq_packed {x y : Double} (hx : x.isFinite) (hy : y.isFinite) :
    x / y = packed (UnpackedFloat.div .binary64 x.unpacked y.unpacked) := by
  rw [← unpack_toFloat hx, ← unpack_toFloat hy]
  rfl

/-- The number of a finite word has all digits and the exponent of its field, unless the field is
the first one. -/
theorem exists_unpacked {x : Double} (hpos : 0 < x.exponentField) (h : x.isFinite) :
    ∃ s m, ∃ hm : 0 < m, x.unpacked = .finite s m (x.exponentField - 1075) hm ∧ m.log2 = 52 := by
  have hlast : @unpackExponent .binary64 x.bits.toBitVec ≠ -1#11 := (unpackExponent_ne_iff x).2 h
  have hfirst : @unpackExponent .binary64 x.bits.toBitVec ≠ 0#11 := by
    rw [← BitVec.toNat_inj.ne, toNat_unpackExponent]
    exact hpos.ne'
  have hfraction := (@unpackMantissa .binary64 x.bits.toBitVec).isLt
  have hmantissa : (1#1 ++ @unpackMantissa .binary64 x.bits.toBitVec).toNat =
      2 ^ 52 + (@unpackMantissa .binary64 x.bits.toBitVec).toNat := by
    rw [BitVec.toNat_append, ← Nat.shiftLeft_add_eq_or_of_lt hfraction]
    rfl
  rw [unpacked, UnpackedFloat.unpack]
  simp only [if_neg hlast, if_neg hfirst, toNat_unpackExponent]
  refine ⟨_, _, by rw [hmantissa]; omega, rfl, ?_⟩
  rw [hmantissa, Nat.log2_eq_iff (by omega)]
  change _ < 2 ^ 52 at hfraction
  omega

/-! ## Numbers of a moderate exponent -/

/-- A zero, or a number whose exponent is at most `bound`. -/
inductive Moderate (bound : Int) : UnpackedFloat → Prop
  | zero (s : Sign) : Moderate bound (.zero s)
  | finite {s : Sign} {m : Nat} {e : Int} {hm : 0 < m} : e ≤ bound →
    Moderate bound (.finite s m e hm)

/-- Only an exponent out of range makes an infinity. -/
theorem Moderate.isFinite_packed {f : UnpackedFloat} (h : Moderate 971 f) :
    (packed f).isFinite := by
  rw [← unpackExponent_ne_iff]
  cases h with
  | zero s =>
    rw [packed, UnpackedFloat.pack, packedZero, unpackExponent_packComponents]
    decide
  | @finite s m e hm he =>
    -- the exponent field of an infinity is the one that is all ones
    have hrange : ¬ 2 ^ 11 ≤ (e + (1023 : Nat) + (52 : Nat)).toNat + 1 := by omega
    have hfield : BitVec.ofNat 11 (e + (1023 : Nat) + (52 : Nat)).toNat ≠ -1#11 := by
      rw [← BitVec.toNat_inj.ne, BitVec.toNat_ofNat, Nat.mod_eq_of_lt (by omega)]
      change _ ≠ 2047
      omega
    rw [packed, UnpackedFloat.pack]
    refine (congrArg (@unpackExponent .binary64) (if_neg hrange)).trans_ne ?_
    split
    · exact unpackExponent_packComponents.trans_ne hfield
    · exact unpackExponent_packComponents.trans_ne (by decide)

variable {m : Nat} {e : Int} {accuracy : Accuracy}

theorem mantissa_ofMantissaAndAccuracy (m : Nat) (accuracy : Accuracy) :
    (ExtendedMantissa.ofMantissaAndAccuracy m accuracy).mantissa = m := by
  rcases accuracy with _ | ⟨_ | _ | _⟩ <;> rfl

theorem mantissa_shiftRight_le (em : ExtendedMantissa) (k : Nat) :
    (em >>> k).mantissa ≤ em.mantissa := by
  induction k with
  | zero => exact le_rfl
  | succ k ih => exact (Nat.div_le_self _ 2).trans ih

theorem roundedMantissa_le (em : ExtendedMantissa) : em.roundedMantissa ≤ em.mantissa + 1 := by
  obtain ⟨m, _ | _, _ | _⟩ := em <;>
    simp only [ExtendedMantissa.roundedMantissa, ExtendedMantissa.accuracy,
      Accuracy.roundToNearestEven] <;> omega

/-- A shift for rounding drops digits and raises the exponent by no more than their number. -/
theorem shiftToTargetExponent_le {k : Nat} (hm : m < 2 ^ (53 + k)) :
    (shiftToTargetExponent .binary64 m e accuracy).1.mantissa ≤ m ∧
      (shiftToTargetExponent .binary64 m e accuracy).2 ≤ max (e + k) (-1074) := by
  constructor
  · refine (mantissa_shiftRight_le _ _).trans_eq (mantissa_ofMantissaAndAccuracy m accuracy)
  · have hlog : m.log2 < 53 + k := by
      rcases Nat.eq_zero_or_pos m with rfl | hpos
      · simp
      · exact (Nat.log2_lt hpos.ne').2 hm
    simp only [shiftToTargetExponent, shiftToExponent, Format.targetExponent, totalExponent,
      Format.mantissaBits, Format.minExponent]
    omega

/-- Rounding raises the exponent by no more than the digits that it drops, and a carry. -/
theorem moderate_roundWithAccuracy (s : Sign) {k : Nat} (hm : m < 2 ^ (53 + k)) :
    Moderate (max (e + k + (k + 1)) (k - 1073)) (roundWithAccuracy .binary64 s m e accuracy) := by
  obtain ⟨hmantissa, hexponent⟩ := @shiftToTargetExponent_le m e accuracy k hm
  rw [roundWithAccuracy]
  generalize shiftToTargetExponent .binary64 m e accuracy = first at hmantissa hexponent
  obtain ⟨em, e₁⟩ := first
  have hrounded : em.roundedMantissa < 2 ^ (53 + (k + 1)) := by
    have hle := roundedMantissa_le em
    have hpow : 2 ^ (53 + (k + 1)) = 2 * 2 ^ (53 + k) := Nat.pow_succ'
    simp only at hmantissa
    omega
  obtain ⟨-, hfinal⟩ := @shiftToTargetExponent_le _ e₁ .exact (k + 1) hrounded
  simp only at hexponent ⊢
  split
  · exact .zero s
  · refine .finite (hfinal.trans ?_)
    push_cast
    omega

/-! ## Words as doubles -/

theorem le_divRoundEven {num den k : Nat} (hden : 0 < den) (h : k * den ≤ num) :
    k ≤ divRoundEven num den := by
  have hnear := (divRoundEven_near num hden).1
  have hlt : 2 * k * den < (2 * divRoundEven num den + 2) * den :=
    calc 2 * k * den = 2 * (k * den) := by ring
      _ ≤ 2 * num := by omega
      _ ≤ (2 * divRoundEven num den + 1) * den := hnear
      _ < (2 * divRoundEven num den + 2) * den := Nat.mul_lt_mul_of_pos_right (by omega) hden
  have := Nat.lt_of_mul_lt_mul_right hlt
  omega

theorem divRoundEven_le {num den k : Nat} (hden : 0 < den) (h : num ≤ k * den) :
    divRoundEven num den ≤ k := by
  have hnear := (divRoundEven_near num hden).2
  have hlt : 2 * divRoundEven num den * den < (2 * k + 2) * den :=
    calc 2 * divRoundEven num den * den = 2 * (divRoundEven num den * den) := by ring
      _ ≤ 2 * num + den := hnear
      _ ≤ 2 * (k * den) + den := by omega
      _ = (2 * k + 1) * den := by ring
      _ < (2 * k + 2) * den := Nat.mul_lt_mul_of_pos_right (by omega) hden
  have := Nat.lt_of_mul_lt_mul_right hlt
  omega

/-- The mantissa that a positive number is rounded to, of the digits of a normal one. -/
def roundedMantissa (n : Nat) : Nat :=
  let shift : Int := n.log2 - 52
  if 0 ≤ shift then divRoundEven n (1 <<< shift.toNat) else divRoundEven (n <<< (-shift).toNat) 1

section

variable {n : Nat} (hpos : 0 < n)
include hpos

theorem roundedMantissa_bounds :
    normalMantissa ≤ roundedMantissa n ∧ roundedMantissa n ≤ 2 * normalMantissa := by
  have hle : 2 ^ n.log2 ≤ n := Nat.log2_self_le hpos.ne'
  have hlt : n < 2 ^ (n.log2 + 1) := Nat.lt_log2_self
  simp only [roundedMantissa]
  split
  · next h =>
    have hpow : normalMantissa * 2 ^ ((n.log2 : Int) - 52).toNat = 2 ^ n.log2 := by
      rw [show normalMantissa = 2 ^ 52 from rfl, ← Nat.pow_add]
      congr 1
      omega
    rw [Nat.one_shiftLeft]
    refine ⟨le_divRoundEven (Nat.two_pow_pos _) (hpow.trans_le hle),
      divRoundEven_le (Nat.two_pow_pos _) ?_⟩
    rw [Nat.mul_assoc, hpow]
    exact hlt.le.trans_eq Nat.pow_succ'
  · next h =>
    have hpow : 2 ^ n.log2 * 2 ^ (-((n.log2 : Int) - 52)).toNat = normalMantissa := by
      rw [show normalMantissa = 2 ^ 52 from rfl, ← Nat.pow_add]
      congr 1
      omega
    rw [Nat.shiftLeft_eq]
    refine ⟨le_divRoundEven Nat.one_pos ?_, divRoundEven_le Nat.one_pos ?_⟩
    · rw [Nat.mul_one, ← hpow]
      exact Nat.mul_le_mul_right _ hle
    · rw [Nat.mul_one, ← hpow, ← Nat.mul_assoc, ← Nat.pow_succ']
      exact Nat.mul_le_mul_right _ hlt.le

theorem floorLog2_one : floorLog2 n 1 = n.log2 := by
  have hlog : Nat.log2 1 = 0 := rfl
  have hle : 1 <<< n.log2 ≤ n := by
    rw [Nat.one_shiftLeft]
    exact Nat.log2_self_le hpos.ne'
  simp [floorLog2, hlog, hle]

variable (hn : n ≤ maxWord)
include hn

/-- The word of the double nearest to a word has an exponent field near that of one. -/
theorem toNat_nearestBits :
    (nearestBits n 1).toNat = (n.log2 + 1022) * normalMantissa + roundedMantissa n := by
  have hlog : n.log2 < 64 := (Nat.log2_lt hpos.ne').2 (Nat.lt_succ_of_le hn)
  have hexponent : max (floorLog2 n 1 - 52) minExponent = n.log2 - 52 := by
    rw [floorLog2_one hpos, minExponent]
    omega
  have hfield : ((n.log2 : Int) - 52 - minExponent).toNat = n.log2 + 1022 := by
    rw [minExponent]
    omega
  have hbits : nearestBits n 1 =
      if (n.log2 + 1022) * normalMantissa + roundedMantissa n < infinityBits.toNat then
        UInt64.ofNat ((n.log2 + 1022) * normalMantissa + roundedMantissa n)
      else infinityBits := by
    rw [nearestBits, if_neg hpos.ne']
    simp only [hexponent, hfield, Nat.shiftLeft_eq _ 52]
    rfl
  have hmantissa := (roundedMantissa_bounds hpos).2
  have hword : (n.log2 + 1022) * normalMantissa + roundedMantissa n < infinityBits.toNat := by
    rw [normalMantissa] at hmantissa ⊢
    change _ < 0x7ff0000000000000
    omega
  rw [hbits, if_pos hword, UInt64.toNat_ofNat_of_lt' (hword.trans (by decide))]

/-- The double nearest to a word has an exponent field near that of one. -/
theorem bits_ofNat_bounds : 1023 * normalMantissa ≤ (ofNat n).bits.toNat ∧
    (ofNat n).bits.toNat ≤ 1087 * normalMantissa := by
  have hlog : n.log2 < 64 := (Nat.log2_lt hpos.ne').2 (Nat.lt_succ_of_le hn)
  have hbits : (ofNat n).bits.toNat = _ := toNat_nearestBits hpos hn
  have hmantissa := roundedMantissa_bounds hpos
  rw [hbits]
  rw [normalMantissa] at hmantissa ⊢
  omega

end

theorem isFinite_ofNat {n : Nat} (hn : n ≤ maxWord) : (ofNat n).isFinite := by
  rcases Nat.eq_zero_or_pos n with rfl | hpos
  · rfl
  · obtain ⟨-, hhi⟩ := bits_ofNat_bounds hpos hn
    rw [isFinite_iff, exponentField, magnitude]
    rw [normalMantissa] at hhi ⊢
    omega

/-- The number of the double nearest to a word has all digits and an exponent near zero. -/
theorem exists_unpacked_ofNat {n : Nat} (hpos : 0 < n) (hn : n ≤ maxWord) :
    ∃ s m e, ∃ hm : 0 < m, (ofNat n).unpacked = .finite s m e hm ∧ m.log2 = 52 ∧
      -52 ≤ e ∧ e ≤ 12 := by
  obtain ⟨hlo, hhi⟩ := bits_ofNat_bounds hpos hn
  have hfield : 1023 ≤ (ofNat n).exponentField ∧ (ofNat n).exponentField ≤ 1087 := by
    rw [exponentField, magnitude]
    rw [normalMantissa] at hlo hhi ⊢
    omega
  obtain ⟨s, m, hm, hunpacked, hlog⟩ :=
    exists_unpacked (Nat.zero_lt_of_lt hfield.1) (isFinite_ofNat hn)
  exact ⟨s, m, _, hm, hunpacked, hlog, by omega, by omega⟩

/-! ## Division -/

theorem Moderate.mono {bound bound' : Int} {f : UnpackedFloat} (h : Moderate bound f)
    (hle : bound ≤ bound') : Moderate bound' f := by
  cases h with
  | zero s => exact .zero s
  | finite he => exact .finite (he.trans hle)

/-- A quotient of numbers with exponents near zero has one near zero. -/
theorem moderate_div {s₁ s₂ : Sign} {m₁ m₂ : Nat} {e₁ e₂ : Int} (hm₁ : 0 < m₁) (hm₂ : 0 < m₂)
    (hlog₁ : m₁.log2 = 52) (hlog₂ : m₂.log2 = 52) (hlo : -64 ≤ e₁ - e₂) (hhi : e₁ - e₂ ≤ 64) :
    Moderate 64 (UnpackedFloat.div .binary64 (.finite s₁ m₁ e₁ hm₁) (.finite s₂ m₂ e₂ hm₂)) := by
  have htarget : min (e₁ - e₂) (Format.binary64.targetExponent
      (totalExponent m₁ e₁ - totalExponent m₂ e₂)) = e₁ - e₂ - 53 := by
    simp only [Format.targetExponent, totalExponent, hlog₁, hlog₂, Format.mantissaBits,
      Format.minExponent]
    omega
  have hshift : (e₁ - e₂ - (e₁ - e₂ - 53)).toNat = 53 := by omega
  have hquotient : m₁ <<< 53 / m₂ < 2 ^ (53 + 1) := by
    rw [Nat.shiftLeft_eq, Nat.div_lt_iff_lt_mul hm₂]
    have h₁ : m₁ < 2 ^ 53 := (Nat.log2_lt hm₁.ne').1 (by omega)
    have h₂ : 2 ^ 52 ≤ m₂ := hlog₂ ▸ Nat.log2_self_le hm₂.ne'
    omega
  simp only [UnpackedFloat.div, divCore, htarget, hshift]
  exact (moderate_roundWithAccuracy _ hquotient).mono (by push_cast; omega)

/-- The quotient of two words is finite. -/
theorem isFinite_ofNat_div {a b : Nat} (ha : a ≤ maxWord) (hpos : 0 < b) (hb : b ≤ maxWord) :
    (ofNat a / ofNat b).isFinite := by
  rw [div_eq_packed (isFinite_ofNat ha) (isFinite_ofNat hb)]
  apply Moderate.isFinite_packed
  obtain ⟨s₂, m₂, e₂, hm₂, hdivisor, hlog₂, hlo₂, hhi₂⟩ := exists_unpacked_ofNat hpos hb
  rw [hdivisor]
  rcases Nat.eq_zero_or_pos a with rfl | hpos
  · have hzero : (ofNat 0).unpacked = .zero .positive := by
      rw [show ofNat 0 = packed (.zero .positive) by decide]
      exact unpack_packedZero
    rw [hzero]
    exact .zero _
  · obtain ⟨s₁, m₁, e₁, hm₁, hdividend, hlog₁, hlo₁, hhi₁⟩ := exists_unpacked_ofNat hpos ha
    rw [hdividend]
    exact (moderate_div hm₁ hm₂ hlog₁ hlog₂ (by omega) (by omega)).mono (by decide)

end Tableflow.Double
