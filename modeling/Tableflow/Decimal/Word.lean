/-!
# Reading unsigned 64-bit words

The text of a word is decimal digits, with a plus sign allowed before them. Digits are taken from
the left, so a number that is already too large is reported before a later character that is no
digit.
-/

namespace Tableflow.Decimal

/-- Why a text is not a word. -/
inductive WordRefusal
  | empty
  | invalidDigit
  | tooLarge
  deriving DecidableEq

/-- The wording of a refusal. -/
def WordRefusal.message : WordRefusal → String
  | .empty => "cannot parse integer from empty string"
  | .invalidDigit => "invalid digit found in string"
  | .tooLarge => "number too large to fit in target type"

/-- Reads further digits of a number whose digits so far spell `n`. -/
def readWordDigits (n : Nat) : List Char → Except WordRefusal Nat
  | [] => .ok n
  | c :: rest =>
    if c.isDigit then
      let next := 10 * n + (c.toNat - '0'.toNat)
      if next < 0x10000000000000000 then readWordDigits next rest else .error .tooLarge
    else .error .invalidDigit

/-- The word that a text spells. -/
def readWord (text : String) : Except WordRefusal UInt64 :=
  let digits :=
    match text.toList with
    | '+' :: rest => if rest.isEmpty then ['+'] else rest
    | other => other
  if digits.isEmpty then .error .empty
  else (readWordDigits 0 digits).map UInt64.ofNat

end Tableflow.Decimal
