import Tableflow.Decimal.Shortest

/-!
# Writing doubles

Two ways to write a double: `write`, with the fewest digits that read back, in the style of the
format at hand, and `writeFixed`, with a given number of places, the exact binary value being
rounded and a half going to the even digit. A sign is written whenever the sign bit is set, before
a zero too.
-/

namespace Tableflow.Decimal

/-- Digits with a point before the last `places` of them, filled up with zeros on the left so that
a digit stands before the point. -/
def withPoint (digits : List Char) (places : Nat) : List Char :=
  if places = 0 then digits
  else
    let padded := List.replicate (places + 1 - digits.length) '0' ++ digits
    let cut := padded.length - places
    padded.take cut ++ '.' :: padded.drop cut

/-- How a finite number is written. -/
structure Style where
  /-- The exponents of the leading digit for which no exponent is written. -/
  positional : Int → Bool
  /-- Whether a whole number written without an exponent ends in `.0`. -/
  pointZero : Bool
  tie : Tie

/-- A numeral in a style. -/
def Style.layout (style : Style) (x : Numeral) : List Char :=
  let digits := Nat.toDigits 10 x.digits
  let lead := digits.length + x.exponent - 1
  if style.positional lead then
    if 0 ≤ x.exponent then
      digits ++ List.replicate x.exponent.toNat '0' ++ (if style.pointZero then ['.', '0'] else [])
    else withPoint digits (-x.exponent).toNat
  else
    let point := if digits.length = 1 then digits else withPoint digits (digits.length - 1)
    point ++ 'e' :: (if lead < 0 then '-' else '+') :: Nat.toDigits 10 lead.natAbs

/-- A finite double in a style. -/
def Style.write (style : Style) (x : Double) : List Char :=
  let magnitude :=
    if x.isZero then style.layout ⟨0, 0⟩ else style.layout (shortest style.tie x.binary)
  if x.isNegative then '-' :: magnitude else magnitude

/-- Messages write numbers without an exponent, and whole ones without a point. -/
def plain : Style := ⟨fun _ => true, false, .up⟩

/-- The word for a double that is no finite number. -/
def writeNonFinite (x : Double) : String :=
  if x.isNaN then "NaN" else if x.isNegative then "-inf" else "inf"

/-- A double in plain style. -/
def write (x : Double) : String :=
  if x.isFinite then String.ofList (plain.write x) else writeNonFinite x

/-- A double with `places` digits after the point. -/
def writeFixed (places : Nat) (x : Double) : String :=
  if x.isFinite then
    let b := x.binary
    let num := b.mantissa * Nat.pow 2 b.exponent.toNat * Nat.pow 10 places
    let rounded := divRoundEven num (Nat.pow 2 (-b.exponent).toNat)
    let magnitude := withPoint (Nat.toDigits 10 rounded) places
    String.ofList (if x.isNegative then '-' :: magnitude else magnitude)
  else writeNonFinite x

end Tableflow.Decimal
