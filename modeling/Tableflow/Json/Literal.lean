import Tableflow.Decimal.Reader

/-!
# JSON number literals

A literal keeps the digits of a number as they are written. Its value is an integer where it is
written as one and fits a machine word, and otherwise a double, or nothing where the number is out
of range. How a double is found is a parameter (`Reals`) with two instances: `exactReal` rounds
the number once, and `quickReal` gathers as many digits as a word holds and scales them by a power
of ten, which can miss the nearest double by a few units in the last place.
-/

namespace Tableflow.Json

/-- The text of a number, taken apart. -/
structure Literal where
  negative : Bool
  /-- The digits before the point. -/
  whole : List Char
  /-- The digits after the point; none if there is no point. -/
  fraction : List Char
  /-- The exponent's sign (true for a minus) and digits. -/
  exponent : Option (Bool × List Char)
  deriving DecidableEq

/-- A number's value. -/
inductive Number
  | integer (n : Int)
  | real (x : Double)
  deriving DecidableEq

/-- A way to find the double that a literal stands for; nothing if it is out of range. -/
abbrev Reals := Literal → Option Double

/-- The least natural number beyond the words. -/
def wordLimit : Nat := 0x10000000000000000

namespace Literal

/-- Whether the literal is written with digits alone. -/
def isWhole (n : Literal) : Bool := n.fraction.isEmpty && n.exponent.isNone

/-- The value of a literal. A minus before zero keeps its meaning only in a double. -/
def value (reals : Reals) (n : Literal) : Option Number :=
  let size := Decimal.natOfDigits n.whole
  if n.isWhole && !n.negative && size < wordLimit then some (.integer size)
  else if n.isWhole && n.negative && 0 < size && size ≤ 0x8000000000000000 then
    some (.integer (-(size : Int)))
  else (reals n).map .real

/-- The exponent as a number. -/
def exponentValue (n : Literal) : Int :=
  match n.exponent with
  | none => 0
  | some (negative, digits) =>
    let size : Int := Decimal.natOfDigits digits
    if negative then -size else size

end Literal

/-! ## Reading with one rounding -/

/-- The double nearest to the literal's number; infinity is out of range. -/
def exactReal : Reals := fun n =>
  let x := Decimal.Numeral.toDouble n.negative
    ⟨Decimal.natOfDigits (n.whole ++ n.fraction), n.exponentValue - n.fraction.length⟩
  if x.isFinite then some x else none

/-! ## Reading by scaling -/

/-- The number that a digit adds at the right of `n`, if a word holds it. -/
def pushDigit (n : Nat) (digit : Char) : Option Nat :=
  let next := 10 * n + (digit.toNat - '0'.toNat)
  if next < wordLimit then some next else none

/-- Gathers digits before the point; from the first one that no longer fits, each raises the
exponent by one. -/
def gatherWhole (significand : Nat) : List Char → Nat × Int
  | [] => (significand, 0)
  | digit :: rest =>
    match pushDigit significand digit with
    | some next => gatherWhole next rest
    | none => (significand, rest.length + 1)

/-- Gathers digits after the point, each lowering the exponent by one, up to the first that no
longer fits. -/
def gatherFraction (significand : Nat) (exponent : Int) : List Char → Nat × Int
  | [] => (significand, exponent)
  | digit :: rest =>
    match pushDigit significand digit with
    | some next => gatherFraction next (exponent - 1) rest
    | none => (significand, exponent)

/-- The double nearest to a power of ten. -/
def powerOfTen (n : Nat) : Double := Decimal.Numeral.toDouble false ⟨1, n⟩

/-- The largest power of ten that is a double. -/
def topPower : Nat := 308

/-- Scales a number of no sign by a power of ten, in steps of the largest one. -/
def scale (x : Double) (exponent : Int) : Option Double :=
  if exponent.natAbs ≤ topPower then
    if 0 ≤ exponent then
      let y := x * powerOfTen exponent.natAbs
      if y.isFinite then some y else none
    else some (x / powerOfTen exponent.natAbs)
  else if x.isZero then some x
  else if _h : 0 ≤ exponent then none
  else scale (x / powerOfTen topPower) (exponent + topPower)
  termination_by (-exponent).toNat
  decreasing_by simp only [topPower]; omega

/-- The largest exponent that is gathered. -/
def exponentLimit : Int := 0x7fffffff

/-- The literal's digits scaled by its exponent. -/
def quickReal : Reals := fun n =>
  let (wholePart, shift) := gatherWhole 0 n.whole
  let (significand, shift) := gatherFraction wholePart shift n.fraction
  let exponent := n.exponentValue
  let magnitude :=
    if exponentLimit < exponent then
      if significand = 0 then some Double.zero else none
    else if exponent < -exponentLimit then some Double.zero
    else
      let total := min exponentLimit (max (-exponentLimit - 1) (shift + exponent))
      scale (Double.ofNat significand) total
  magnitude.map fun x => Double.ofMagnitude n.negative x.bits

/-- The digits of an exponent behind the one that takes it beyond `exponentLimit`. -/
def beyondLimit (exponent : Nat) : List Char → List Char
  | [] => []
  | digit :: rest =>
    let next := 10 * exponent + (digit.toNat - '0'.toNat)
    if exponentLimit < next then rest else beyondLimit next rest

/-- The last digits of a literal's exponent, if the digits before them are enough to tell that a
number other than zero is out of range. -/
def Literal.needless (n : Literal) : List Char :=
  match n.exponent with
  | some (false, digits) => beyondLimit 0 digits
  | _ => []

end Tableflow.Json
