import Tableflow.Json.Decode
import Tableflow.Table

/-!
# Tables and series as JSON

A table is an object of its index and its columns, a series one of its index and its column. A
column has a name and its data, which are tagged with their type. What is read is checked like a
table made of columns, so nothing that breaks the invariants gets in.
-/

namespace Tableflow

open Json (Value Tree Reals Decoded)

/-! ## Writing -/

namespace Cells

def toJson : Cells → Value
  | .numeric values =>
    .object [("type", .string "numeric"), ("values", .array (values.map (Value.optional .real)))]
  | .categorical values =>
    .object
      [("type", .string "categorical"), ("values", .array (values.map (Value.optional .string)))]

end Cells

namespace Column

def toJson (c : Column) : Value :=
  .object [("name", .string c.name), ("data", c.cells.toJson)]

end Column

/-- The row ids of a table or a series. -/
def indexJson (index : List Nat) : Value := .array (index.map Value.natural)

namespace Table

def toJson (t : Table) : Value :=
  .object [("index", indexJson t.index), ("columns", .array (t.columns.map Column.toJson))]

end Table

namespace Series

def toJson (s : Series) : Value :=
  .object [("index", indexJson s.index), ("column", s.column.toJson)]

end Series

/-! ## Reading -/

namespace Cells

/-- The cells of a type. -/
def ofContent (reals : Reals) (type : String) (content : Tree) : Option Cells :=
  if type = "numeric" then
    (Tree.asList (Tree.asOptional (Tree.asReal reals)) content).map .numeric
  else if type = "categorical" then
    (Tree.asList (Tree.asOptional Tree.asText) content).map .categorical
  else none

def ofTree (reals : Reals) (tree : Tree) : Option Cells :=
  Tree.readChoice "type" "values" (ofContent reals) tree

end Cells

namespace Column

def ofTree (reals : Reals) (tree : Tree) : Option Column := do
  let record := Tree.Record.of ["name", "data"] false tree
  let name ← record.required 0 Tree.asText
  let cells ← record.required 1 (Cells.ofTree reals)
  return ⟨name, cells⟩

end Column

/-- The row ids of a table or a series. -/
def indexOfTree (tree : Tree) : Option (List Nat) := Tree.asList Tree.asNatural tree

namespace Table

def ofTree (reals : Reals) (tree : Tree) : Decoded TableDefect Table := do
  let record := Tree.Record.of ["index", "columns"] false tree
  let index ← .ofOption (record.required 0 indexOfTree)
  let columns ← .ofOption (record.required 1 (Tree.asList (Column.ofTree reals)))
  .checked (Table.withIndex index columns)

end Table

namespace Series

def ofTree (reals : Reals) (tree : Tree) : Decoded TableDefect Series := do
  let record := Tree.Record.of ["index", "column"] false tree
  let index ← .ofOption (record.required 0 indexOfTree)
  let column ← .ofOption (record.required 1 (Column.ofTree reals))
  .checked (Series.withIndex index column)

end Series

end Tableflow
