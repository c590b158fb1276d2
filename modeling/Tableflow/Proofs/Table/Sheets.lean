import Tableflow.Proofs.Split.Partition
import Tableflow.Proofs.Table.Checks

/-!
# Operations on bare data

Rows are picked, columns are split off and parts are made without a look at the shape of what comes
out. Here these operations are written for data of which nothing is promised: a list is indexed at
every position, and there is no result at all where one of them is beyond its end (`pick?`). On the
data of a table or a series there always is a result, and it holds the data of what the operation on
tables gives (`Table.take_sheet`, `Table.splitColumn_sheet`, `Split.split_sheet`).
-/

namespace Tableflow

/-! ## Picking -/

/-- The items of a list at some positions, if none of these is beyond its end. -/
def pick? {α : Type u} (items : List α) (positions : List Nat) : Option (List α) :=
  positions.mapM (items[·]?)

theorem pick?_eq_some {α : Type u} {items : List α} {positions : List Nat}
    (h : ∀ p ∈ positions, p < items.length) :
    pick? items positions = some (pick items positions) := by
  rw [pick?, mapM_eq_some_iff]
  induction positions with
  | nil => rfl
  | cons p rest ih =>
    obtain ⟨hp, hrest⟩ := List.forall_mem_cons.1 h
    rw [List.map_cons, ih hrest, pick_cons hp, List.map_cons, List.getElem?_eq_getElem hp]

/-- The cells at some positions, if none of these is beyond the last one. -/
def Cells.pick? (cells : Cells) (positions : List Nat) : Option Cells :=
  match cells with
  | .numeric values => (Tableflow.pick? values positions).map .numeric
  | .categorical values => (Tableflow.pick? values positions).map .categorical

/-- The column with the cells at some positions, if none of these is beyond the last one. -/
def Column.pick? (c : Column) (positions : List Nat) : Option Column :=
  (c.cells.pick? positions).map fun cells => ⟨c.name, cells⟩

theorem Column.pick?_eq_some {c : Column} {positions : List Nat}
    (h : ∀ p ∈ positions, p < c.length) : c.pick? positions = some (c.take positions) := by
  obtain ⟨name, cells⟩ := c
  cases cells with
  | numeric values => simp only [Column.pick?, Cells.pick?, Tableflow.pick?_eq_some h]; rfl
  | categorical values => simp only [Column.pick?, Cells.pick?, Tableflow.pick?_eq_some h]; rfl

/-- What is picked at positions that were checked against a number of rows. -/
def checkedPick {α : Type} (positions : List Nat) (rows : Nat) (picked : Option α) :
    Option (Except TableDefect α) :=
  match firstBeyond positions rows with
  | some p => some (.error (.positionOutOfRange p rows))
  | none => picked.map .ok

theorem checkedPick_eq {α β : Type} {positions : List Nat} {rows : Nat} {picked : Option α}
    {result : Except TableDefect β} {bare : β → α}
    (hbeyond : ∀ p, firstBeyond positions rows = some p →
      result = .error (.positionOutOfRange p rows))
    (hlt : (∀ p ∈ positions, p < rows) → ∃ b, result = .ok b ∧ picked = some (bare b)) :
    checkedPick positions rows picked = some (result.map bare) := by
  rw [checkedPick]
  cases h : firstBeyond positions rows with
  | some p =>
    rw [hbeyond p h]
    rfl
  | none =>
    obtain ⟨b, hb, hpicked⟩ := hlt (firstBeyond_eq_none_iff.1 h)
    rw [hb, hpicked]
    rfl

namespace Sheet

/-- The rows of a sheet at some positions, if no list is too short. -/
def pick? (s : Sheet) (positions : List Nat) : Option Sheet := do
  return ⟨← Tableflow.pick? s.index positions, ← s.columns.mapM (·.pick? positions)⟩

/-- The rows of a sheet at positions that are checked against its index. -/
def take (s : Sheet) (positions : List Nat) : Option (Except TableDefect Sheet) :=
  checkedPick positions s.index.length (s.pick? positions)

end Sheet

namespace Strip

/-- The values of a strip at some positions, if no list is too short. -/
def pick? (s : Strip) (positions : List Nat) : Option Strip := do
  return ⟨← Tableflow.pick? s.index positions, ← s.column.pick? positions⟩

/-- The values of a strip at positions that are checked against its index. -/
def take (s : Strip) (positions : List Nat) : Option (Except TableDefect Strip) :=
  checkedPick positions s.index.length (s.pick? positions)

end Strip

/-- No list of a table is too short for positions that are rows of it. -/
theorem Table.pick?_sheet {t : Table} {positions : List Nat} (h : ∀ p ∈ positions, p < t.numRows) :
    t.sheet.pick? positions = some (t.select positions h).sheet := by
  have hcolumns : t.columns.mapM (·.pick? positions) = some (t.columns.map (·.take positions)) := by
    rw [mapM_eq_some_iff, List.map_map]
    refine List.map_congr_left fun c hc => Column.pick?_eq_some fun p hp => ?_
    exact Nat.lt_of_lt_of_eq (h p hp) (t.length_columns c hc).symm
  have hindex : Tableflow.pick? t.sheet.index positions = some (pick t.index positions) :=
    Tableflow.pick?_eq_some h
  have hsheet : t.sheet.columns.mapM (·.pick? positions) =
      some (t.columns.map (·.take positions)) := hcolumns
  rw [Sheet.pick?, hindex, hsheet]
  rfl

theorem Table.take_sheet (t : Table) (positions : List Nat) :
    t.sheet.take positions = some ((t.take positions).map Table.sheet) :=
  checkedPick_eq (fun _ => take_of_firstBeyond) fun h => ⟨_, take_of_lt h, pick?_sheet h⟩

/-- No list of a series is too short for positions that are rows of it. -/
theorem Series.pick?_strip {s : Series} {positions : List Nat}
    (h : ∀ p ∈ positions, p < s.length) :
    s.strip.pick? positions = some (s.select positions h).strip := by
  have hindex : Tableflow.pick? s.strip.index positions = some (pick s.index positions) :=
    Tableflow.pick?_eq_some h
  have hcolumn : s.strip.column.pick? positions = some (s.column.take positions) :=
    Column.pick?_eq_some fun p hp => Nat.lt_of_lt_of_eq (h p hp) s.length_column.symm
  rw [Strip.pick?, hindex, hcolumn]
  rfl

theorem Series.take_strip (s : Series) (positions : List Nat) :
    s.strip.take positions = some ((s.take positions).map Series.strip) :=
  checkedPick_eq (fun _ => take_of_firstBeyond) fun h => ⟨_, take_of_lt h, pick?_strip h⟩

/-! ## Columns -/

/-- Splits a column off a sheet: the other columns, and that one. -/
def Sheet.splitColumn (s : Sheet) (name : String) : Except TableDefect (Sheet × Strip) :=
  match s.columns.find? fun c => c.name = name with
  | none => .error (.noColumn name)
  | some column => .ok (⟨s.index, s.columns.filter fun c => c.name ≠ name⟩, ⟨s.index, column⟩)

/-- The strip of a column, its rows numbered from zero. -/
def Strip.ofColumn (column : Column) : Strip := ⟨List.range column.length, column⟩

/-- The strip as a sheet of one column. -/
def Strip.toSheet (s : Strip) : Sheet := ⟨s.index, [s.column]⟩

theorem Table.splitColumn_sheet (t : Table) (name : String) :
    t.sheet.splitColumn name =
      (t.splitColumn name).map fun parts => (parts.1.sheet, parts.2.strip) := by
  have hfind : (t.sheet.columns.find? fun c => c.name = name) = t.column? name := rfl
  rw [Sheet.splitColumn, hfind, splitColumn]
  split
  · next hnone =>
    split
    · rfl
    · next hsome =>
      rw [hnone] at hsome
      cases hsome
  · next column hcolumn =>
    split
    · next hnone =>
      rw [hcolumn] at hnone
      cases hnone
    · next other hother =>
      rw [hcolumn] at hother
      obtain rfl := Option.some.inj hother
      rfl

theorem Series.strip_ofColumn (column : Column) :
    (Series.ofColumn column).strip = Strip.ofColumn column := rfl

theorem Series.sheet_toTable (s : Series) : s.toTable.sheet = s.strip.toSheet := rfl

end Tableflow
