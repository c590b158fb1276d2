import Tableflow.Double

/-!
# Doubles as binary fractions

A finite double is a mantissa times a power of two. `Double.binary` takes the word apart, and
`Double.nearest` puts together the double nearest to a fraction of natural numbers, a half going
to the even mantissa. `Double.ceilWord` is the whole number that a double is rounded up to. All
three work on natural numbers alone.
-/

namespace Tableflow

/-- `num / den` to the nearest whole number; a half goes to the even neighbour. -/
def divRoundEven (num den : Nat) : Nat :=
  let quotient := num / den
  let remainder := num % den
  if 2 * remainder < den then quotient
  else if den < 2 * remainder then quotient + 1
  else quotient + quotient % 2

/-- The result is within half a unit of the fraction. -/
theorem divRoundEven_near (num : Nat) {den : Nat} (hden : 0 < den) :
    2 * num ≤ (2 * divRoundEven num den + 1) * den ∧
      2 * (divRoundEven num den * den) ≤ 2 * num + den := by
  have hsplit := Nat.div_add_mod num den
  have hmod := Nat.mod_lt num hden
  have hcomm : num / den * den = den * (num / den) := Nat.mul_comm _ _
  simp only [divRoundEven]
  split
  · grind
  · split
    · grind
    · rcases Nat.mod_two_eq_zero_or_one (num / den) with h | h <;> rw [h] <;> grind

/-- `num / den` rounded up to a whole number. -/
def divCeil (num den : Nat) : Nat := (num + (den - 1)) / den

/-- A whole number is at least the result if it is at least the fraction. -/
theorem divCeil_le_iff (num : Nat) {den : Nat} (hden : 0 < den) (k : Nat) :
    divCeil num den ≤ k ↔ num ≤ k * den := by
  rw [divCeil, Nat.div_le_iff_le_mul_add_pred hden, Nat.add_le_add_iff_right, Nat.mul_comm]

namespace Double

/-- Mantissa and exponent of a finite double's magnitude, which is `mantissa * 2 ^ exponent`. -/
structure Binary where
  mantissa : Nat
  exponent : Int
  deriving DecidableEq

/-- The exponent of the smallest positive double. -/
def minExponent : Int := -1074

/-- The mantissas of normal doubles start here. -/
def normalMantissa : Nat := 0x10000000000000

/-- The magnitude of a finite double, taken apart. -/
def binary (x : Double) : Binary :=
  let field : Nat := x.magnitude / normalMantissa
  let fraction : Nat := x.magnitude % normalMantissa
  if field = 0 then ⟨fraction, minExponent⟩
  else ⟨normalMantissa + fraction, (field : Int) - 1 + minExponent⟩

/-- The largest unsigned 64-bit word. -/
def maxWord : Nat := 0xffffffffffffffff

/-- The least whole number that is not below `x`, kept within the unsigned 64-bit words;
not-a-number counts as zero. -/
def ceilWord (x : Double) : Nat :=
  if x.isNegative || x.isNaN then 0
  else if x.isFinite then
    let b := x.binary
    min maxWord (divCeil (b.mantissa <<< b.exponent.toNat) (1 <<< (-b.exponent).toNat))
  else maxWord

/-- The largest `e` with `2 ^ e ≤ num / den`, for positive `num` and `den`. -/
def floorLog2 (num den : Nat) : Int :=
  let guess : Int := (num.log2 : Int) - (den.log2 : Int)
  let reached := if 0 ≤ guess then den <<< guess.toNat ≤ num else den ≤ num <<< (-guess).toNat
  if reached then guess else guess - 1

/-- The word of the double nearest to `num / den`. Mantissa and exponent field overlap by the
leading bit of a normal mantissa, so one sum serves subnormal and normal numbers, and a mantissa
that rounds up to the next power of two carries into the exponent. -/
def nearestBits (num den : Nat) : UInt64 :=
  if num = 0 then 0
  else
    let exponent := max (floorLog2 num den - 52) minExponent
    let mantissa :=
      if 0 ≤ exponent then divRoundEven num (den <<< exponent.toNat)
      else divRoundEven (num <<< (-exponent).toNat) den
    let word := ((exponent - minExponent).toNat <<< 52) + mantissa
    if word < infinityBits.toNat then UInt64.ofNat word else infinityBits

/-- The double nearest to `num / den`, with the given sign. -/
def nearest (negative : Bool) (num den : Nat) : Double :=
  ofMagnitude negative (nearestBits num den)

/-- The double nearest to a natural number. -/
def ofNat (n : Nat) : Double := nearest false n 1

end Double

end Tableflow
