import Tableflow.Json.Literal
import Tableflow.Text.Hex

/-!
# Reading JSON text

`Tree.read` reads one value off the front of a text. It never fails: where the text stops being
JSON the tree ends in the leaf `torn`, after everything that could be read, so that whoever
interprets a tree in the order of the text meets a defect exactly where a reader of the text would.
Numbers are left as literals, and a string whose escapes form no text (a surrogate on its own) is
left without one, because a value that is skipped need not have either.
-/

namespace Tableflow.Json

/-- JSON text, taken apart. -/
inductive Tree where
  | null
  | bool (b : Bool)
  | number (n : Literal)
  | string (s : Option String)
  | array (items : List Tree)
  | object (members : List (Option String × Tree))
  | torn
  deriving Inhabited

/-- Whether a character is white space between the tokens of JSON. -/
def isSpace (c : Char) : Bool := c = ' ' || c = '\n' || c = '\t' || c = '\r'

/-- A text without the white space at its front. -/
def skipSpace (text : List Char) : List Char := text.dropWhile isSpace

/-! ## Strings -/

/-- The number that four hexadecimal digits spell. -/
def hexUnit (a b c d : Char) : Option Nat := do
  return ((((← Text.hexDigit? a) * 16 + (← Text.hexDigit? b)) * 16 + (← Text.hexDigit? c)) * 16 +
    (← Text.hexDigit? d))

/-- The character that a one-letter escape stands for. -/
def escapedChar : Char → Option Char
  | '"' => some '"'
  | '\\' => some '\\'
  | '/' => some '/'
  | 'b' => some '\x08'
  | 'f' => some '\x0c'
  | 'n' => some '\n'
  | 'r' => some '\r'
  | 't' => some '\t'
  | _ => none

/-- Reads a string after its opening quote: the code points and surrogates that it spells, and the
text after the closing quote. Control characters must be escaped. -/
def readUnits : List Char → Option (List Nat × List Char)
  | [] => none
  | '"' :: rest => some ([], rest)
  | '\\' :: 'u' :: a :: b :: c :: d :: rest => do
    let unit ← hexUnit a b c d
    let (units, after) ← readUnits rest
    return (unit :: units, after)
  | '\\' :: c :: rest => do
    let escaped ← escapedChar c
    let (units, after) ← readUnits rest
    return (escaped.toNat :: units, after)
  | c :: rest =>
    if c = '\\' || c.toNat < 0x20 then none
    else do
      let (units, after) ← readUnits rest
      return (c.toNat :: units, after)

/-- The text of a list of code points in which each high surrogate is followed by a low one. -/
def joinUnits : List Nat → Option (List Char)
  | [] => some []
  | unit :: rest =>
    if unit < 0xd800 || 0xe000 ≤ unit then (joinUnits rest).map (Char.ofNat unit :: ·)
    else if unit < 0xdc00 then
      match rest with
      | low :: after =>
        if 0xdc00 ≤ low && low < 0xe000 then
          (joinUnits after).map
            (Char.ofNat (0x10000 + (unit - 0xd800) * 0x400 + (low - 0xdc00)) :: ·)
        else none
      | [] => none
    else none

/-- Reads a string after its opening quote. -/
def readString (text : List Char) : Option (Option String × List Char) :=
  (readUnits text).map fun (units, rest) => ((joinUnits units).map String.ofList, rest)

/-! ## Numbers -/

/-- Reads the digits before the point; a leading zero stands alone. -/
def readWhole : List Char → Option (List Char × List Char)
  | [] => none
  | c :: rest =>
    if c = '0' then
      match rest with
      | next :: _ => if next.isDigit then none else some (['0'], rest)
      | [] => some (['0'], [])
    else if c.isDigit then some (c :: rest.takeWhile Char.isDigit, rest.dropWhile Char.isDigit)
    else none

/-- Reads a run of at least one digit. -/
def readDigits (text : List Char) : Option (List Char × List Char) :=
  let digits := text.takeWhile Char.isDigit
  if digits.isEmpty then none else some (digits, text.dropWhile Char.isDigit)

/-- Reads the point and the digits after it, if there is one. -/
def readFraction : List Char → Option (List Char × List Char)
  | '.' :: rest => readDigits rest
  | text => some ([], text)

/-- Reads an exponent, if there is one. -/
def readExponent : List Char → Option (Option (Bool × List Char) × List Char)
  | [] => some (none, [])
  | c :: rest =>
    if c = 'e' || c = 'E' then do
      let (negative, unsigned) := Decimal.splitSign rest
      let (digits, after) ← readDigits unsigned
      return (some (negative, digits), after)
    else some (none, c :: rest)

/-- Reads a number. -/
def readLiteral (text : List Char) : Option (Literal × List Char) := do
  let (negative, unsigned) :=
    match text with
    | '-' :: rest => (true, rest)
    | _ => (false, text)
  let (whole, rest) ← readWhole unsigned
  let (fraction, rest) ← readFraction rest
  let (exponent, rest) ← readExponent rest
  return (⟨negative, whole, fraction, exponent⟩, rest)

/-! ## Values -/

namespace Tree

/-- A tree that was read, and the text after it unless it is torn. -/
abbrev Reading (α : Type) := α × Option (List Char)

mutual

/-- Reads a value; the fuel bounds the number of tokens. -/
def readValue : Nat → List Char → Reading Tree
  | 0, _ => (.torn, none)
  | fuel + 1, text =>
    match skipSpace text with
    | 'n' :: 'u' :: 'l' :: 'l' :: rest => (.null, some rest)
    | 't' :: 'r' :: 'u' :: 'e' :: rest => (.bool true, some rest)
    | 'f' :: 'a' :: 'l' :: 's' :: 'e' :: rest => (.bool false, some rest)
    | '"' :: rest =>
      match readString rest with
      | some (s, after) => (.string s, some after)
      | none => (.torn, none)
    | '[' :: rest =>
      match skipSpace rest with
      | ']' :: after => (.array [], some after)
      | inner =>
        let (items, after) := readItems fuel inner
        (.array items, after)
    | '{' :: rest =>
      match skipSpace rest with
      | '}' :: after => (.object [], some after)
      | inner =>
        let (members, after) := readMembers fuel inner
        (.object members, after)
    | other =>
      match readLiteral other with
      | some (n, after) => (.number n, some after)
      | none => (.torn, none)

/-- Reads the items of an array from the first one on. -/
def readItems : Nat → List Char → Reading (List Tree)
  | 0, _ => ([.torn], none)
  | fuel + 1, text =>
    let (item, after) := readValue fuel text
    match after.map skipSpace with
    | some (',' :: rest) =>
      let (items, after) := readItems fuel rest
      (item :: items, after)
    | some (']' :: rest) => ([item], some rest)
    | some _ => ([item, .torn], none)
    | none => ([item], none)

/-- Reads the members of an object from the first one on. -/
def readMembers : Nat → List Char → Reading (List (Option String × Tree))
  | 0, _ => ([(none, .torn)], none)
  | fuel + 1, text =>
    match skipSpace text with
    | '"' :: rest =>
      match readString rest with
      | none => ([(none, .torn)], none)
      | some (name, rest) =>
        match skipSpace rest with
        | ':' :: rest =>
          let (value, after) := readValue fuel rest
          match after.map skipSpace with
          | some (',' :: rest) =>
            let (members, after) := readMembers fuel rest
            ((name, value) :: members, after)
          | some ('}' :: rest) => ([(name, value)], some rest)
          | some _ => ([(name, value), (none, .torn)], none)
          | none => ([(name, value)], none)
        | _ => ([(name, .torn)], none)
    | _ => ([(none, .torn)], none)

end

/-- Reads one value off the front of a text. -/
def read (text : List Char) : Reading Tree := readValue (2 * text.length + 1) text

mutual

/-- Whether nothing in the tree is torn. -/
def isWhole : Tree → Bool
  | .torn => false
  | .array items => areWhole items
  | .object members => membersAreWhole members
  | _ => true

def areWhole : List Tree → Bool
  | [] => true
  | item :: rest => isWhole item && areWhole rest

def membersAreWhole : List (Option String × Tree) → Bool
  | [] => true
  | (_, value) :: rest => isWhole value && membersAreWhole rest

end

end Tree

end Tableflow.Json
