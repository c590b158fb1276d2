import Tableflow.Dictionary
import Tableflow.Text.Alphanumeric
import Tableflow.Text.Blank

/-!
# Files of variables

A file of variables has a line `NAME=value` for each, where `export` may stand before the name. A
value may be quoted and then go over several lines: single quotes keep everything, double quotes
know escapes and variables. Outside quotes a value ends at a blank, after which only a comment may
follow. `$NAME` and `$` with a name in braces stand for variables. Variables are looked up in the
texts `NAME=value` that make up an environment, so what is looked up may reach into the value.

The content is cut into entries first, which are lines except where a quote or an escape is open
at the end of one, and each entry is then read by itself. Reading ends at the first entry that is
malformed; the ones before it count. A variable that is set already is never changed.
-/

namespace Tableflow.EnvFile

/-! ## Entries -/

/-- Where the cutting into entries stands between two characters. -/
inductive Mark
  | plain
  | blank
  | escape
  | single
  | singleEscape
  | double
  | doubleEscape
  deriving DecidableEq

/-- The mark after a character outside quotes. -/
def Mark.open (c : Char) : Option Mark :=
  if c = '\\' then some .escape
  else if c = '"' then some .double
  else if c = '\'' then some .single
  else none

/-- The mark after a character, or none at the start of a comment. -/
def Mark.next (mark : Mark) (c : Char) : Option Mark :=
  match mark with
  | .blank => if c = '#' then none else some ((Mark.open c).getD .plain)
  | .plain =>
    if Text.isBlank c && c ≠ '\n' && c ≠ '\r' then some .blank
    else some ((Mark.open c).getD .plain)
  | .escape => some .plain
  | .double => some (if c = '\\' then .doubleEscape else if c = '"' then .plain else .double)
  | .doubleEscape => some .double
  | .single => some (if c = '\\' then .singleEscape else if c = '\'' then .plain else .single)
  | .singleEscape => some .single

/-- Follows a line: its text up to a comment, and the mark at its end, or none at a comment. -/
def follow (mark : Mark) : List Char → List Char × Option Mark
  | [] => ([], some mark)
  | c :: rest =>
    match mark.next c with
    | none => ([], none)
    | some next =>
      let (text, last) := follow next rest
      (c :: text, last)

/-- A line without the line feed at its end and the carriage return before it. -/
def withoutEnd (line : List Char) : List Char :=
  match line.reverse with
  | '\n' :: '\r' :: rest | '\n' :: rest => rest.reverse
  | _ => line

/-- Cuts lines into entries, where `entry` is the text of the entry that is open and `mark` stands
at its end. An entry that is open at the end of the lines is malformed, which is told by `none` at
the end of the list. -/
def entriesFrom (entry : List Char) (mark : Mark) :
    List (List Char) → List (Option (List Char))
  | [] => if mark = .plain then [] else [none]
  | line :: rest =>
    if ((entry ++ line).dropWhile Text.isBlank).head? = some '#' then
      some [] :: entriesFrom [] .plain rest
    else
      match follow mark line with
      | (text, none) => some (entry ++ text) :: entriesFrom [] .plain rest
      | (_, some .plain) => some (withoutEnd (entry ++ line)) :: entriesFrom [] .plain rest
      | (_, some next) => entriesFrom (entry ++ line) next rest

/-! ## Values -/

/-- A part of a value: a character, or what is looked up. -/
inductive Part
  | char (c : Char)
  | variable (text : String)
  deriving DecidableEq

/-- Where the reading of a value stands between two characters; `quoted` tells whether a double
quote is open, and a name is held backwards. -/
inductive Reading
  | value (quoted : Bool)
  | escape (quoted : Bool)
  | single
  | name (quoted : Bool) (letters : List Char)
  | braced (quoted : Bool) (letters : List Char)
  | ended
  deriving DecidableEq

/-- The variable whose name is held backwards. -/
def variablePart (letters : List Char) : Part := .variable (String.ofList letters.reverse)

/-- Reads a value from a state on; the parts before it are held backwards. -/
def readValue (parts : List Part) : Reading → List Char → Option (List Part)
  | .value false, [] | .escape false, [] | .ended, [] => some parts.reverse
  | .name false letters, [] => some (variablePart letters :: parts).reverse
  | _, [] => none
  | .ended, c :: rest =>
    if c = ' ' || c = '\t' then readValue parts .ended rest
    else if c = '#' then some parts.reverse
    else none
  | .escape quoted, c :: rest =>
    if c = '\\' || c = '\'' || c = '"' || c = '$' || c = ' ' then
      readValue (.char c :: parts) (.value quoted) rest
    else if c = 'n' then readValue (.char '\n' :: parts) (.value quoted) rest
    else none
  | .single, c :: rest =>
    if c = '\'' then readValue parts (.value false) rest
    else readValue (.char c :: parts) .single rest
  | .name quoted letters, c :: rest =>
    if Text.isAlphanumeric c then readValue parts (.name quoted (c :: letters)) rest
    else if c = '{' && letters.isEmpty then readValue parts (.braced quoted []) rest
    else if c = '$' then readValue (variablePart letters :: parts) (.name quoted []) rest
    else readValue (.char c :: variablePart letters :: parts) (.value quoted) rest
  | .braced quoted letters, c :: rest =>
    if c = '}' then readValue (variablePart letters :: parts) (.value quoted) rest
    else readValue parts (.braced quoted (c :: letters)) rest
  | .value quoted, c :: rest =>
    if c = '$' then readValue parts (.name quoted []) rest
    else if c = '\\' then readValue parts (.escape quoted) rest
    else if c = '"' then readValue parts (.value !quoted) rest
    else if quoted then readValue (.char c :: parts) (.value true) rest
    else if c = '\'' then readValue parts .single rest
    else if c = ' ' || c = '\t' then readValue parts .ended rest
    else readValue (.char c :: parts) (.value false) rest

/-! ## Assignments -/

/-- A variable and its value. -/
structure Assignment where
  name : String
  value : List Part
  deriving DecidableEq

def isNameStart (c : Char) : Bool := c.isAlpha || c = '_'

def isNameChar (c : Char) : Bool := c.isAlphanum || c = '_' || c = '.'

/-- Reads a name, and the text after it and the blanks. -/
def readName : List Char → Option (String × List Char)
  | [] => none
  | c :: rest =>
    if isNameStart c then
      some (String.ofList (c :: rest.takeWhile isNameChar),
        (rest.dropWhile isNameChar).dropWhile Text.isBlank)
    else none

/-- Reads an equals sign. -/
def readEquals : List Char → Option (List Char)
  | '=' :: rest => some rest
  | _ => none

/-- Reads the name and the equals sign of an assignment. -/
def readTarget (text : List Char) : Option (String × List Char) := do
  let (name, rest) ← readName text
  match readEquals rest with
  | some value => return (name, value)
  | none =>
    guard (name = "export")
    let (name, rest) ← readName rest
    return (name, ← readEquals rest)

/-- Whether a text holds nothing or a comment. -/
def isIdle (text : List Char) : Bool := text.isEmpty || text.head? = some '#'

/-- Reads an entry, which may hold no assignment. -/
def readEntry (entry : List Char) : Option (Option Assignment) := do
  let text := Text.trim entry
  if isIdle text then return none
  let (name, rest) ← readTarget text
  let value := rest.dropWhile Text.isBlank
  if isIdle value then return some ⟨name, []⟩
  return some ⟨name, ← readValue [] (.value false) value⟩

/-- The assignments of entries up to the first one that is malformed. -/
def assignments : List (Option (List Char)) → List Assignment
  | [] => []
  | entry :: rest =>
    match entry.bind readEntry with
    | none => []
    | some none => assignments rest
    | some (some assignment) => assignment :: assignments rest

/-! ## Content -/

/-- Bytes cut after each line feed. -/
def byteLines : List UInt8 → List (List UInt8)
  | [] => []
  | byte :: rest =>
    if byte = 0x0a then [byte] :: byteLines rest
    else
      match byteLines rest with
      | [] => [[byte]]
      | line :: more => (byte :: line) :: more

/-- The lines of some content up to the first one that is no text. -/
def textLines : List (List UInt8) → List (List Char)
  | [] => []
  | line :: rest =>
    match String.fromUTF8? ⟨line.toArray⟩ with
    | some text => text.toList :: textLines rest
    | none => []

/-- Bytes without a byte order mark at their front. -/
def withoutMark : List UInt8 → List UInt8
  | 0xef :: 0xbb :: 0xbf :: rest => rest
  | bytes => bytes

/-- The assignments of a file. -/
def read (content : ByteArray) : List Assignment :=
  assignments (entriesFrom [] .plain (textLines (byteLines (withoutMark content.toList))))

/-! ## Effect -/

/-- What is looked up, cut at its first equals sign: the name of a variable, and the characters
behind the sign if there is one. -/
def splitLookup (text : String) : String × Option (List Char) :=
  let chars := text.toList
  let name := String.ofList (chars.takeWhile (· ≠ '='))
  match chars.dropWhile (· ≠ '=') with
  | [] => (name, none)
  | _ :: start => (name, some start)

/-- What stands behind some text and an equals sign in an environment of texts `NAME=value`. If the
text has an equals sign itself, the characters behind it are the start of a variable's value. -/
def lookup? (env : Dictionary String) (text : String) : Option String :=
  match splitLookup text with
  | (name, none) => env.find? name
  | (name, some start) => do
    let value ← env.find? name
    String.ofList <$> (start ++ ['=']).isPrefixOf? value.toList

/-- The variables that matter for some assignments. -/
def mentioned (assignments : List Assignment) : List String :=
  assignments.flatMap fun a =>
    a.name :: a.value.filterMap fun
      | .variable text => some (splitLookup text).1
      | .char _ => none

/-- The text of a part of a value; what is not found has none. -/
def partText (env : Dictionary String) : Part → String
  | .char c => c.toString
  | .variable text => (lookup? env text).getD ""

/-- Makes an assignment, unless the variable is set already. -/
def assign (env : Dictionary String) (a : Assignment) : Dictionary String :=
  if env.contains a.name then env
  else env.insert a.name (String.join (a.value.map (partText env)))

/-- Makes assignments one after another. -/
def apply (env : Dictionary String) (assignments : List Assignment) : Dictionary String :=
  assignments.foldl assign env

end Tableflow.EnvFile
