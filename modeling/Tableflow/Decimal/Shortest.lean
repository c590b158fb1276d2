import Tableflow.Decimal.Numeral

/-!
# The shortest numeral that reads back

Among the decimals that round to a given double, `shortest` finds one with the fewest digits and,
among those, the nearest to the double. For every count of digits from one upward it tests the two
neighbours of the value on that decimal grid, in exact arithmetic on natural numbers; the first
grid with a hit wins. If a grid point lies in the rounding interval then so does one of the
neighbours on that grid, which is why two tests for each count suffice.
-/

namespace Tableflow.Decimal

/-- Which of two equally near decimals is taken. -/
inductive Tie
  | toEven
  | up
  deriving DecidableEq

/-- The least `e` with `num / den < 10 ^ e`, for positive `num` and `den`. -/
def magnitudeExponent (num den : Nat) : Int :=
  if den ≤ num then digitCount (num / den) else 1 - (digitCount ((den - 1) / num) : Int)

/-- The decimals that round to a positive double, in quarters of its last binary place: the value
is `4 * mantissa`, and the interval reaches down by two quarters, or by one where the doubles
below are twice as dense, and up by two. The ends belong to it iff the mantissa is even. -/
structure Interval where
  value : Nat
  low : Nat
  high : Nat
  closed : Bool

/-- The rounding interval of a positive double. -/
def Interval.of (b : Double.Binary) : Interval :=
  let dense := b.mantissa = Double.normalMantissa && Double.minExponent < b.exponent
  { value := 4 * b.mantissa
    low := 4 * b.mantissa - (if dense then 1 else 2)
    high := 4 * b.mantissa + 2
    closed := b.mantissa % 2 = 0 }

/-- The neighbour of `value * num / den` on the grid of natural numbers that lies in the interval,
the nearer one if both do. -/
def Interval.gridPoint (i : Interval) (tie : Tie) (num den : Nat) : Option Nat :=
  let below := i.value * num / den
  let above := below + 1
  let gap := i.value * num % den
  let reachesDown :=
    if i.closed then i.low * num ≤ below * den else i.low * num < below * den
  let reachesUp := if i.closed then above * den ≤ i.high * num else above * den < i.high * num
  match decide reachesDown, decide reachesUp with
  | true, true =>
    let roundUp := den < 2 * gap || (2 * gap = den && (tie = .up || below % 2 = 1))
    some (if roundUp then above else below)
  | true, false => some below
  | false, true => some above
  | false, false => none

/-- The shortest numeral that rounds to a positive double. -/
def shortest (tie : Tie) (b : Double.Binary) : Numeral :=
  let interval := Interval.of b
  let quarter := b.exponent - 2
  let num := Nat.pow 2 quarter.toNat
  let den := Nat.pow 2 (-quarter).toNat
  let top := magnitudeExponent (interval.value * num) den
  let onGrid (count : Nat) : Option Numeral :=
    let exponent := top - count
    let num := num * Nat.pow 10 (-exponent).toNat
    let den := den * Nat.pow 10 exponent.toNat
    (interval.gridPoint tie num den).map fun digits => Numeral.trim ⟨digits, exponent⟩
  ((List.range 17).findSome? fun i => onGrid (i + 1)).getD
    ⟨interval.value * num / den, 0⟩

end Tableflow.Decimal
