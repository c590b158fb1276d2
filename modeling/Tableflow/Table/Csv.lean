import Tableflow.Decimal.Reader
import Tableflow.Table
import Tableflow.Text.Blank
import Tableflow.Text.Line

/-!
# Tables as delimited text

The first line that is not blank names the columns and every other one is a row, cut into fields
at a delimiter; there is no quoting. Fields are trimmed. A field that is one of the missing markers
is a missing cell. A column whose other fields all spell numbers is numeric, one without other
fields among them, and any other is categorical.
-/

namespace Tableflow.Csv

/-- The fields that stand for a missing cell. -/
def missingMarkers : List String := ["", "NA", "NaN", "nan", "null"]

/-- The text of a trimmed field. -/
def fieldText (field : List Char) : String := String.ofList (Text.trim field)

/-- The cell of a field, as text. -/
def cell (field : List Char) : Option String :=
  let text := fieldText field
  if text ∈ missingMarkers then none else some text

/-- The cell of a text in a numeric column, if there can be one. -/
def numericCell : Option String → Option (Option Double)
  | none => some none
  | some text => (Decimal.read text).toOption.map some

/-- The cells of a column, numeric if they can be. -/
def inferCells (cells : List (Option String)) : Cells :=
  match cells.mapM numericCell with
  | some values => .numeric values
  | none => .categorical cells

/-- The lines of a text that are not blank. -/
def records (content : String) : List (List Char) :=
  (Text.lines content.toList).filter fun line => !(Text.trim line).isEmpty

/-- The fields of every row, if each row has `width` of them. Rows are numbered among the lines
that are not blank, of which the header is the first. -/
def splitRows (delimiter : Char) (width : Nat) :
    Nat → List (List Char) → Except TableDefect (List (List (List Char)))
  | _, [] => .ok []
  | number, line :: rest => do
    let fields := Text.fields delimiter line
    if fields.length ≠ width then .error (.fieldCount number fields.length width)
    else return fields :: (← splitRows delimiter width (number + 1) rest)

/-- Column `c` of some rows of fields. -/
def columnCells (rows : List (Array (List Char))) (c : Nat) : List (Option String) :=
  rows.map fun row => cell (row[c]?.getD [])

/-- The table that a text spells. -/
def parse (content : String) (delimiter : Char) : Except TableDefect Table :=
  match records content with
  | [] => .error .emptyText
  | header :: lines => do
    let names := (Text.fields delimiter header).map fieldText
    let rows ← splitRows delimiter names.length 2 lines
    let grid := rows.map List.toArray
    Table.ofColumns (names.mapIdx fun c name => ⟨name, inferCells (columnCells grid c)⟩)

/-- The table that a text spells, with a column split off as its labels. -/
def parseLabeled (content : String) (delimiter : Char) (label : String) :
    Except TableDefect (Table × Series) := do
  (← parse content delimiter).splitColumn label

end Tableflow.Csv
