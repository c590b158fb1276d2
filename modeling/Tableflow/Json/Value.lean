import Tableflow.Decimal.Layout

/-!
# JSON values and their text

A value of the JSON data format, and its two written forms: `compact`, without blanks, and
`pretty`, with a line for every member and two blanks for every level. Integers and doubles are
kept apart, since a double is always written with a point or an exponent. Objects keep the order
of their members.
-/

namespace Tableflow.Json

/-- A JSON value. -/
inductive Value where
  | null
  | bool (b : Bool)
  | integer (n : Int)
  | real (x : Double)
  | string (s : String)
  | array (items : List Value)
  | object (members : List (String × Value))
  deriving Inhabited

namespace Value

/-- The value of a natural number. -/
def natural (n : Nat) : Value := .integer n

/-- The value of something that may be absent. -/
def optional {α : Type u} (f : α → Value) : Option α → Value
  | some a => f a
  | none => .null

end Value

/-! ## Scalars -/

/-- Numbers are written without an exponent from 1e-5 up to below 1e16. -/
def numberStyle : Decimal.Style := ⟨fun lead => -5 ≤ lead && lead < 16, true, .toEven⟩

/-- A double; the ones that are no numbers are written as null. -/
def writeReal (x : Double) : List Char :=
  if x.isFinite then numberStyle.write x else ['n', 'u', 'l', 'l']

/-- An integer. -/
def writeInteger (n : Int) : List Char :=
  if n < 0 then '-' :: Nat.toDigits 10 n.natAbs else Nat.toDigits 10 n.natAbs

/-- A character inside a string. -/
def writeChar (c : Char) : List Char :=
  if c = '"' || c = '\\' then ['\\', c]
  else if c.toNat = 0x08 then ['\\', 'b']
  else if c.toNat = 0x09 then ['\\', 't']
  else if c.toNat = 0x0a then ['\\', 'n']
  else if c.toNat = 0x0c then ['\\', 'f']
  else if c.toNat = 0x0d then ['\\', 'r']
  else if c.toNat < 0x20 then
    ['\\', 'u', '0', '0', Nat.digitChar (c.toNat / 16), Nat.digitChar (c.toNat % 16)]
  else [c]

/-- A string in quotes. -/
def writeString (s : String) : List Char := '"' :: s.toList.flatMap writeChar ++ ['"']

/-! ## Compact text -/

namespace Value

mutual

/-- The text of a value without blanks. -/
def compactChars : Value → List Char
  | .null => ['n', 'u', 'l', 'l']
  | .bool true => ['t', 'r', 'u', 'e']
  | .bool false => ['f', 'a', 'l', 's', 'e']
  | .integer n => writeInteger n
  | .real x => writeReal x
  | .string s => writeString s
  | .array items => '[' :: compactItems items
  | .object members => '{' :: compactMembers members

/-- The items of an array and its closing bracket. -/
def compactItems : List Value → List Char
  | [] => [']']
  | [item] => compactChars item ++ [']']
  | item :: next :: rest => compactChars item ++ ',' :: compactItems (next :: rest)

/-- The members of an object and its closing brace. -/
def compactMembers : List (String × Value) → List Char
  | [] => ['}']
  | [(name, value)] => writeString name ++ ':' :: compactChars value ++ ['}']
  | (name, value) :: next :: rest =>
    writeString name ++ ':' :: compactChars value ++ ',' :: compactMembers (next :: rest)

end

/-- The text of a value without blanks. -/
def compact (value : Value) : String := String.ofList value.compactChars

/-! ## Pretty text -/

/-- A line end and the indentation of a level. -/
def newline (level : Nat) : List Char := '\n' :: List.replicate (2 * level) ' '

mutual

/-- The text of a value that stands at a level, with a line for every member. -/
def prettyChars (level : Nat) : Value → List Char
  | .array [] => ['[', ']']
  | .array (item :: rest) =>
    '[' :: newline (level + 1) ++ prettyChars (level + 1) item ++ prettyItems level rest
  | .object [] => ['{', '}']
  | .object ((name, value) :: rest) =>
    '{' :: newline (level + 1) ++ writeString name ++ ':' :: ' ' ::
      prettyChars (level + 1) value ++ prettyMembers level rest
  | .null => ['n', 'u', 'l', 'l']
  | .bool true => ['t', 'r', 'u', 'e']
  | .bool false => ['f', 'a', 'l', 's', 'e']
  | .integer n => writeInteger n
  | .real x => writeReal x
  | .string s => writeString s

/-- The items after the first one, and the closing bracket. -/
def prettyItems (level : Nat) : List Value → List Char
  | [] => newline level ++ [']']
  | item :: rest =>
    ',' :: newline (level + 1) ++ prettyChars (level + 1) item ++ prettyItems level rest

/-- The members after the first one, and the closing brace. -/
def prettyMembers (level : Nat) : List (String × Value) → List Char
  | [] => newline level ++ ['}']
  | (name, value) :: rest =>
    ',' :: newline (level + 1) ++ writeString name ++ ':' :: ' ' ::
      prettyChars (level + 1) value ++ prettyMembers level rest

end

/-- The text of a value with a line for every member. -/
def pretty (value : Value) : String := String.ofList (value.prettyChars 0)

end Value

end Tableflow.Json
