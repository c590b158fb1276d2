import Tableflow.Decimal.Numeral

/-!
# Reading decimal text

The text of a number is an optional sign followed by `inf`, `infinity` or `nan` in any case, or by
digits with an optional point and an optional exponent. There is at least one digit on one side of
the point and at least one in an exponent; blanks, separators and other digits than the ASCII ones
are refused. A number is rounded to the nearest double, beyond the range to infinity or to zero.
-/

namespace Tableflow.Decimal

/-- Why a text is not a number. -/
inductive Refusal
  | empty
  | malformed
  deriving DecidableEq

/-- The wording of a refusal. -/
def Refusal.message : Refusal → String
  | .empty => "cannot parse float from empty string"
  | .malformed => "invalid float literal"

/-- Splits a sign off a text; a text without one is positive. -/
def splitSign : List Char → Bool × List Char
  | '+' :: rest => (false, rest)
  | '-' :: rest => (true, rest)
  | rest => (false, rest)

/-- The exponent that a text spells, the empty text after the digits being exponent zero. -/
def readExponent : List Char → Option Int
  | [] => some 0
  | mark :: rest =>
    let (negative, digits) := splitSign rest
    if (mark = 'e' || mark = 'E') && !digits.isEmpty && digits.all Char.isDigit then
      let size : Int := natOfDigits digits
      some (if negative then -size else size)
    else none

/-- The numeral that a text without a sign spells. -/
def readNumeral (text : List Char) : Option Numeral :=
  let whole := text.takeWhile Char.isDigit
  let rest := text.dropWhile Char.isDigit
  let (fraction, tail) :=
    match rest with
    | '.' :: after => (after.takeWhile Char.isDigit, after.dropWhile Char.isDigit)
    | _ => ([], rest)
  if whole.isEmpty && fraction.isEmpty then none
  else (readExponent tail).map fun exponent =>
    ⟨natOfDigits (whole ++ fraction), exponent - fraction.length⟩

/-- The double that a text without a sign spells, taken with the given sign. -/
def readMagnitude (negative : Bool) (text : List Char) : Option Double :=
  let name := String.ofList (text.map Char.toLower)
  if name = "inf" || name = "infinity" then some (Double.infinity negative)
  else if name = "nan" then some (Double.nan negative)
  else (readNumeral text).map (Numeral.toDouble negative)

/-- The double nearest to the number that a text spells. -/
def read (text : String) : Except Refusal Double :=
  if text.isEmpty then .error .empty
  else
    let (negative, rest) := splitSign text.toList
    match readMagnitude negative rest with
    | some x => .ok x
    | none => .error .malformed

end Tableflow.Decimal
