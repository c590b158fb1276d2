import Tableflow.Json.Tree

/-!
# Where a text stops being JSON

`textDefect?` finds the first defect of a text that should be one JSON value and tells it in words,
with the line and the number of bytes before the place in that line. A defect is told at the byte
that shows it or, where that byte is only looked at and might have belonged to something else, one
byte later.
-/

namespace Tableflow.Json

/-- What is wrong with a text. -/
inductive DefectReason
  | endInValue
  | endInList
  | endInObject
  | endInString
  | noColon
  | noListEnd
  | noObjectEnd
  | noWord
  | noValue
  | badEscape
  | badNumber
  | outOfRange
  | controlCharacter
  | nameWithoutQuotes
  | loneSurrogate
  | commaAtEnd
  | moreText
  | unfinishedEscape
  | tooDeep
  deriving DecidableEq

/-- The wording of a reason. -/
def DefectReason.message : DefectReason → String
  | .endInValue => "EOF while parsing a value"
  | .endInList => "EOF while parsing a list"
  | .endInObject => "EOF while parsing an object"
  | .endInString => "EOF while parsing a string"
  | .noColon => "expected `:`"
  | .noListEnd => "expected `,` or `]`"
  | .noObjectEnd => "expected `,` or `\x7d`"
  | .noWord => "expected ident"
  | .noValue => "expected value"
  | .badEscape => "invalid escape"
  | .badNumber => "invalid number"
  | .outOfRange => "number out of range"
  | .controlCharacter => "control character (\\u0000-\\u001F) found while parsing a string"
  | .nameWithoutQuotes => "key must be a string"
  | .loneSurrogate => "lone leading surrogate in hex escape"
  | .commaAtEnd => "trailing comma"
  | .moreText => "trailing characters"
  | .unfinishedEscape => "unexpected end of hex escape"
  | .tooDeep => "recursion limit exceeded"

/-- A defect, and the bytes behind the place where it is told. -/
structure Defect where
  reason : DefectReason
  rest : List Char
  deriving DecidableEq

/-- The bytes behind something that is sound, or a defect in it. Every byte is held as the character
of its number. -/
abbrev Scan := Except Defect (List Char)

/-! ## Words and strings -/

/-- Passes over the letters of a word. -/
def scanWord : List Char → List Char → Scan
  | [], text => .ok text
  | _ :: _, [] => .error ⟨.endInValue, []⟩
  | letter :: letters, c :: rest =>
    if c = letter then scanWord letters rest else .error ⟨.noWord, rest⟩

/-- Reads four hexadecimal digits. -/
def scanHex : List Char → Except Defect (Nat × List Char)
  | a :: b :: c :: d :: rest =>
    match hexUnit a b c d with
    | some unit => .ok (unit, rest)
    | none => .error ⟨.badEscape, rest⟩
  | _ => .error ⟨.endInString, []⟩

/-- Passes over the low surrogate that must follow a high one. -/
def scanLow : List Char → Scan
  | [] | ['\\'] => .error ⟨.endInString, []⟩
  | '\\' :: 'u' :: rest => do
    let (unit, rest) ← scanHex rest
    if 0xdc00 ≤ unit && unit < 0xe000 then return rest else .error ⟨.loneSurrogate, rest⟩
  | '\\' :: _ :: rest => .error ⟨.unfinishedEscape, rest⟩
  | _ :: rest => .error ⟨.unfinishedEscape, rest⟩

/-- Passes over an escape after its backslash. -/
def scanEscape : List Char → Scan
  | [] => .error ⟨.endInString, []⟩
  | 'u' :: rest => do
    let (unit, rest) ← scanHex rest
    if unit < 0xd800 || 0xe000 ≤ unit then return rest
    else if unit < 0xdc00 then scanLow rest
    else .error ⟨.loneSurrogate, rest⟩
  | c :: rest => if (escapedChar c).isSome then .ok rest else .error ⟨.badEscape, rest⟩

/-- Passes over a string after its opening quote; the fuel bounds its length. -/
def scanString : Nat → List Char → Scan
  | 0, text => .ok text
  | _ + 1, [] => .error ⟨.endInString, []⟩
  | fuel + 1, c :: rest =>
    if c = '"' then .ok rest
    else if c = '\\' then do scanString fuel (← scanEscape rest)
    else if c.toNat < 0x20 then .error ⟨.controlCharacter, rest⟩
    else scanString fuel rest

/-! ## Numbers -/

/-- Passes over an exponent after its letter. -/
def scanExponent (text : List Char) : Scan :=
  match (Decimal.splitSign text).2 with
  | [] => .error ⟨.endInValue, []⟩
  | c :: rest =>
    if c.isDigit then .ok (rest.dropWhile Char.isDigit) else .error ⟨.badNumber, rest⟩

/-- Passes over an exponent, if there is one. -/
def scanMaybeExponent : List Char → Scan
  | [] => .ok []
  | c :: rest => if c = 'e' || c = 'E' then scanExponent rest else .ok (c :: rest)

/-- Passes over a fraction and an exponent, if there are any. -/
def scanTail : List Char → Scan
  | '.' :: [] => .error ⟨.endInValue, []⟩
  | '.' :: c :: rest =>
    if c.isDigit then scanMaybeExponent (rest.dropWhile Char.isDigit)
    else .error ⟨.badNumber, rest⟩
  | text => scanMaybeExponent text

/-- Passes over a number without a sign. -/
def scanUnsigned : List Char → Scan
  | [] => .error ⟨.endInValue, []⟩
  | c :: rest =>
    if c = '0' then
      match rest with
      | next :: after => if next.isDigit then .error ⟨.badNumber, after⟩ else scanTail rest
      | [] => .ok []
    else if c.isDigit then scanTail (rest.dropWhile Char.isDigit)
    else .error ⟨.badNumber, rest⟩

/-- Passes over a number, which must be in range; one that is not is told at its end or at the
digit of its exponent that shows it. -/
def scanNumber (text : List Char) : Scan := do
  let rest ← scanUnsigned (if text.head? = some '-' then text.drop 1 else text)
  match readLiteral text with
  | some (n, _) =>
    if (n.value quickReal).isSome then return rest
    else .error ⟨.outOfRange, n.needless ++ rest⟩
  | none => return rest

/-! ## Values -/

mutual

/-- Passes over a value in which at most `depth` containers nest; the fuel bounds the number of
tokens. -/
def scanValue : (fuel depth : Nat) → List Char → Scan
  | 0, _, text => .ok text
  | fuel + 1, depth, text =>
    match skipSpace text with
    | [] => .error ⟨.endInValue, []⟩
    | 'n' :: rest => scanWord ['u', 'l', 'l'] rest
    | 't' :: rest => scanWord ['r', 'u', 'e'] rest
    | 'f' :: rest => scanWord ['a', 'l', 's', 'e'] rest
    | '"' :: rest => scanString (rest.length + 1) rest
    | '[' :: rest =>
      match depth with
      | 0 => .error ⟨.tooDeep, rest⟩
      | depth + 1 => scanItems fuel depth true rest
    | '{' :: rest =>
      match depth with
      | 0 => .error ⟨.tooDeep, rest⟩
      | depth + 1 => scanMembers fuel depth true rest
    | c :: rest =>
      if c = '-' || c.isDigit then scanNumber (c :: rest) else .error ⟨.noValue, rest⟩

/-- Passes over the items of an array and its closing bracket. -/
def scanItems : (fuel depth : Nat) → (first : Bool) → List Char → Scan
  | 0, _, _, text => .ok text
  | fuel + 1, depth, first, text =>
    match skipSpace text with
    | [] => .error ⟨.endInList, []⟩
    | ']' :: rest => .ok rest
    | c :: rest => do
      if first then scanItems fuel depth false (← scanValue fuel depth (c :: rest))
      else if c = ',' then
        match skipSpace rest with
        | [] => .error ⟨.endInValue, []⟩
        | ']' :: after => .error ⟨.commaAtEnd, after⟩
        | item => scanItems fuel depth false (← scanValue fuel depth item)
      else .error ⟨.noListEnd, rest⟩

/-- Passes over the members of an object and its closing brace. -/
def scanMembers : (fuel depth : Nat) → (first : Bool) → List Char → Scan
  | 0, _, _, text => .ok text
  | fuel + 1, depth, first, text =>
    match skipSpace text with
    | [] => .error ⟨.endInObject, []⟩
    | '}' :: rest => .ok rest
    | c :: rest => do
      if first then scanMembers fuel depth false (← scanMember fuel depth (c :: rest))
      else if c = ',' then
        match skipSpace rest with
        | [] => .error ⟨.endInValue, []⟩
        | '}' :: after => .error ⟨.commaAtEnd, after⟩
        | member => scanMembers fuel depth false (← scanMember fuel depth member)
      else .error ⟨.noObjectEnd, rest⟩

/-- Passes over a name, a colon and a value. -/
def scanMember : (fuel depth : Nat) → List Char → Scan
  | fuel + 1, depth, '"' :: rest => do
    match skipSpace (← scanString (rest.length + 1) rest) with
    | [] => .error ⟨.endInObject, []⟩
    | ':' :: value => scanValue fuel depth value
    | _ :: after => .error ⟨.noColon, after⟩
  | _, _, text => .error ⟨.nameWithoutQuotes, text.drop 1⟩

end

/-! ## Whole texts -/

/-- How deep containers may nest. -/
def nestingLimit : Nat := 127

/-- Passes over one value, after which only white space may follow. -/
def scanText (text : List Char) : Scan := do
  match skipSpace (← scanValue (3 * text.length + 3) nestingLimit text) with
  | [] => return []
  | _ :: rest => .error ⟨.moreText, rest⟩

/-- The first defect of a text that should be one JSON value, in words. -/
def textDefect? (text : String) : Option String :=
  let bytes := text.toUTF8.toList.map fun byte => Char.ofNat byte.toNat
  match scanText bytes with
  | .ok _ => none
  | .error defect =>
    let before := bytes.take (bytes.length - defect.rest.length)
    let reason := defect.reason.message
    let line := before.count '\n' + 1
    let column := (before.reverse.takeWhile (· ≠ '\n')).length
    some s!"{reason} at line {line} column {column}"

end Tableflow.Json
