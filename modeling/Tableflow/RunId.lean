import Tableflow.Text.Hex

/-!
# Run identifiers

A run is known by a number of 128 bits, written as 32 lowercase hexadecimal digits in five groups
joined by hyphens. Reading also accepts capital digits, the digits without hyphens, and the groups
between braces or behind `urn:uuid:`.
-/

namespace Tableflow

/-- The identifier of a run. -/
structure RunId where
  number : BitVec 128
  deriving DecidableEq, Inhabited

namespace RunId

/-- The digits of an identifier, the most significant first. -/
def digits (id : RunId) : List Char :=
  (List.range 32).map fun i => Nat.digitChar (id.number.toNat / Nat.pow 16 (31 - i) % 16)

/-- The text of an identifier. -/
def text (id : RunId) : String :=
  let part (first count : Nat) : List Char := (id.digits.drop first).take count
  String.ofList (part 0 8 ++ '-' :: part 8 4 ++ '-' :: part 12 4 ++ '-' :: part 16 4 ++
    '-' :: part 20 12)

/-- The identifier of some digits. -/
def ofDigits? (digits : List Char) : Option RunId := do
  let values ← digits.mapM Text.hexDigit?
  guard (values.length = 32)
  return ⟨BitVec.ofNat 128 (values.foldl (fun n digit => 16 * n + digit) 0)⟩

/-- The identifier of five groups of digits joined by hyphens. -/
def ofGroups? (chars : List Char) : Option RunId := do
  guard ((List.range chars.length).filter (chars[·]? = some '-') = [8, 13, 18, 23])
  ofDigits? (chars.filter (· ≠ '-'))

/-- What may stand before the groups, in any case. -/
def namespaceMark : List Char := ['u', 'r', 'n', ':', 'u', 'u', 'i', 'd', ':']

/-- The identifier that a text spells. -/
def ofText? (text : String) : Option RunId :=
  match text.toList with
  | '{' :: rest => if rest.getLast? = some '}' then ofGroups? rest.dropLast else none
  | chars =>
    if (chars.take namespaceMark.length).map Char.toLower = namespaceMark then
      ofGroups? (chars.drop namespaceMark.length)
    else ofDigits? chars <|> ofGroups? chars

/-- The identifier made of sixteen random bytes: the version and variant bits are those that mark
an identifier as random. -/
def ofRandomBytes (bytes : List UInt8) : RunId :=
  let number := bytes.foldl (fun n byte => 256 * n + byte.toNat) 0
  let marked := BitVec.ofNat 128 number
  let keep : BitVec 128 := 0xffffffffffff0fff3fffffffffffffff
  let marks : BitVec 128 := 0x00000000000040008000000000000000
  ⟨marked &&& keep ||| marks⟩

end RunId

end Tableflow
