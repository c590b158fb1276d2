import Tableflow.Fault

/-!
# Tables and series

A table is a list of columns with distinct names, each as long as the table's index; a series is a
single column with an index. The index holds the row ids of the source that the rows came from, so
rows that were picked out can be traced back. Both invariants are part of the types;
`Table.withIndex` tests them for columns of any origin and names the first offence, a repeated name
being looked for before a wrong length.

Rows are picked by position. `pick` drops positions beyond the end; `select` asks for a proof that
there are none and `take` refuses them, so that there is one row for every position
(`length_pick`).
-/

namespace Tableflow

/-! ## Columns -/

/-- The two types of columns. -/
inductive ColumnType
  | numeric
  | categorical
  deriving DecidableEq

/-- The word for a column type. -/
def ColumnType.name : ColumnType → String
  | .numeric => "numeric"
  | .categorical => "categorical"

/-- The cells of a column; an absent value is a missing cell. -/
inductive Cells
  | numeric (values : List (Option Double))
  | categorical (values : List (Option String))
  deriving DecidableEq

/-- The items of a list at some positions, in the order of the positions. -/
def pick {α : Type u} (items : List α) (positions : List Nat) : List α :=
  let row := items.toArray
  positions.filterMap fun p => row[p]?

theorem length_pick {α : Type u} {items : List α} {positions : List Nat}
    (h : ∀ p ∈ positions, p < items.length) : (pick items positions).length = positions.length := by
  induction positions with
  | nil => rfl
  | cons p rest ih =>
    have hp : p < items.length := h p List.mem_cons_self
    have ih := ih fun q hq => h q (List.mem_cons_of_mem _ hq)
    simp only [pick, List.getElem?_toArray] at ih ⊢
    simp [List.getElem?_eq_getElem hp, ih]

namespace Cells

/-- The number of cells. -/
def length : Cells → Nat
  | .numeric values => values.length
  | .categorical values => values.length

def columnType : Cells → ColumnType
  | .numeric _ => .numeric
  | .categorical _ => .categorical

/-- The number of missing cells. -/
def missing : Cells → Nat
  | .numeric values => values.countP (·.isNone)
  | .categorical values => values.countP (·.isNone)

/-- The cells at some positions. -/
def take (cells : Cells) (positions : List Nat) : Cells :=
  match cells with
  | .numeric values => .numeric (pick values positions)
  | .categorical values => .categorical (pick values positions)

theorem length_take {cells : Cells} {positions : List Nat}
    (h : ∀ p ∈ positions, p < cells.length) :
    (cells.take positions).length = positions.length := by
  cases cells <;> exact length_pick h

end Cells

/-- A named column. -/
structure Column where
  name : String
  cells : Cells
  deriving DecidableEq

namespace Column

def length (c : Column) : Nat := c.cells.length

def columnType (c : Column) : ColumnType := c.cells.columnType

/-- The column with the cells at some positions. -/
def take (c : Column) (positions : List Nat) : Column := ⟨c.name, c.cells.take positions⟩

end Column

/-! ## Tables -/

/-- A table of equally long columns with distinct names. -/
structure Table where
  index : List Nat
  columns : List Column
  names_nodup : (columns.map (·.name)).Nodup
  length_columns : ∀ c ∈ columns, c.length = index.length
  deriving DecidableEq

/-- A single column with its index. -/
structure Series where
  index : List Nat
  column : Column
  length_column : column.length = index.length
  deriving DecidableEq

/-- The first position that is no row. -/
def firstBeyond (positions : List Nat) (rows : Nat) : Option Nat :=
  positions.find? (rows ≤ ·)

theorem lt_of_firstBeyond_eq_none {positions : List Nat} {rows : Nat}
    (h : firstBeyond positions rows = none) : ∀ p ∈ positions, p < rows := by
  intro p hp
  have := List.find?_eq_none.1 h p hp
  simpa using this

namespace Table

/-- The first offence of columns against an index, where `seen` are the names before them. -/
def firstDefect (index : List Nat) (seen : List String) : List Column → Option TableDefect
  | [] => none
  | c :: rest =>
    if c.name ∈ seen then some (.duplicateColumn c.name)
    else if c.length ≠ index.length then
      some (.columnLength c.name c.length index.length)
    else firstDefect index (c.name :: seen) rest

theorem firstDefect_eq_none {index : List Nat} {seen : List String} {columns : List Column}
    (h : firstDefect index seen columns = none) :
    (columns.map (·.name)).Nodup ∧ (∀ c ∈ columns, c.name ∉ seen) ∧
      ∀ c ∈ columns, c.length = index.length := by
  induction columns generalizing seen with
  | nil => simp
  | cons c rest ih =>
    unfold firstDefect at h
    split at h
    · cases h
    · split at h
      · cases h
      · next hseen hlength =>
        obtain ⟨hnodup, hfresh, hlengths⟩ := ih h
        refine ⟨?_, ?_, ?_⟩
        · refine List.nodup_cons.2 ⟨?_, hnodup⟩
          intro hmem
          obtain ⟨d, hd, hname⟩ := List.mem_map.1 hmem
          exact hfresh d hd (hname ▸ List.mem_cons_self)
        · intro d hd
          rcases List.mem_cons.1 hd with rfl | hd
          · exact hseen
          · exact fun hmem => hfresh d hd (List.mem_cons_of_mem _ hmem)
        · intro d hd
          rcases List.mem_cons.1 hd with rfl | hd
          · exact Decidable.of_not_not hlength
          · exact hlengths d hd

/-- The table of some columns with an index. -/
def withIndex (index : List Nat) (columns : List Column) : Except TableDefect Table :=
  match h : firstDefect index [] columns with
  | some defect => .error defect
  | none =>
    .ok ⟨index, columns, (firstDefect_eq_none h).1, (firstDefect_eq_none h).2.2⟩

/-- The table of some columns, its rows numbered from zero; the first column tells their number. -/
def ofColumns (columns : List Column) : Except TableDefect Table :=
  withIndex (List.range (columns.head?.elim 0 Column.length)) columns

def numRows (t : Table) : Nat := t.index.length

def names (t : Table) : List String := t.columns.map (·.name)

/-- The column of a name. -/
def column? (t : Table) (name : String) : Option Column :=
  t.columns.find? fun c => c.name = name

/-- Names and types of the columns. -/
def schema (t : Table) : List (String × ColumnType) :=
  t.columns.map fun c => (c.name, c.columnType)

/-- The table of the rows at some positions, in the order of the positions. -/
def select (t : Table) (positions : List Nat) (inRange : ∀ p ∈ positions, p < t.numRows) :
    Table where
  index := pick t.index positions
  columns := t.columns.map (·.take positions)
  names_nodup := by
    have : (t.columns.map (·.take positions)).map (·.name) = t.columns.map (·.name) := by
      simp [Column.take]
    exact this ▸ t.names_nodup
  length_columns := by
    intro c hc
    obtain ⟨d, hd, rfl⟩ := List.mem_map.1 hc
    rw [length_pick inRange]
    exact Cells.length_take fun p hp =>
      Nat.lt_of_lt_of_eq (inRange p hp) (t.length_columns d hd).symm

/-- The table of the rows at some positions, unless one of them is no row. -/
def take (t : Table) (positions : List Nat) : Except TableDefect Table :=
  match h : firstBeyond positions t.numRows with
  | some p => .error (.positionOutOfRange p t.numRows)
  | none => .ok (t.select positions (lt_of_firstBeyond_eq_none h))

/-- Splits a column off a table: the other columns, and that one as a series. -/
def splitColumn (t : Table) (name : String) : Except TableDefect (Table × Series) :=
  match h : t.column? name with
  | none => .error (.noColumn name)
  | some column =>
    .ok
      ({ index := t.index
         columns := t.columns.filter fun c => c.name ≠ name
         names_nodup := t.names_nodup.sublist (List.filter_sublist.map _)
         length_columns := fun c hc => t.length_columns c (List.mem_filter.1 hc).1 },
       { index := t.index
         column
         length_column := t.length_columns column (List.mem_of_find?_eq_some h) })

end Table

/-! ## Series -/

namespace Series

/-- The series of a column, its rows numbered from zero. -/
def ofColumn (column : Column) : Series := ⟨List.range column.length, column, by simp⟩

/-- The series of a column with an index. -/
def withIndex (index : List Nat) (column : Column) : Except TableDefect Series :=
  if h : column.length = index.length then .ok ⟨index, column, h⟩
  else .error (.seriesLength column.name column.length index.length)

def name (s : Series) : String := s.column.name

def length (s : Series) : Nat := s.index.length

/-- The series of the values at some positions, in the order of the positions. -/
def select (s : Series) (positions : List Nat) (inRange : ∀ p ∈ positions, p < s.length) :
    Series where
  index := pick s.index positions
  column := s.column.take positions
  length_column := by
    rw [length_pick inRange]
    exact Cells.length_take fun p hp =>
      Nat.lt_of_lt_of_eq (inRange p hp) s.length_column.symm

/-- The series of the values at some positions, unless one of them is no row. -/
def take (s : Series) (positions : List Nat) : Except TableDefect Series :=
  match h : firstBeyond positions s.length with
  | some p => .error (.positionOutOfRange p s.length)
  | none => .ok (s.select positions (lt_of_firstBeyond_eq_none h))

/-- The series as a table of one column. -/
def toTable (s : Series) : Table where
  index := s.index
  columns := [s.column]
  names_nodup := by simp
  length_columns := by simpa using s.length_column

end Series

end Tableflow
