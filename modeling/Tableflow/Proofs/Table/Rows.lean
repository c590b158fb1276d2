import Mathlib.Data.List.Basic
import Tableflow.Table

/-!
# Rows of tables

A table read by rows: a row has an id and one cell of every column. Every position below the number
of rows has a row (`Table.exists_row?_iff`). Picking rows out of a table gives one row for each
position, which is the row that stands there in the table (`Table.rows_select`), and it keeps the
names and types of the columns (`Table.schema_select`).

`pick` is used on rows as it is on cells: at a permutation of all positions it permutes the items
(`pick_perm`), and it can be done side by side on two lists (`pick_zip`).
-/

namespace Tableflow

/-! ## Items at positions -/

section

variable {α : Type u} {β : Type v} {items : List α} {positions : List Nat}

theorem pick_eq_filterMap (items : List α) (positions : List Nat) :
    pick items positions = positions.filterMap (items[·]?) := by
  simp only [pick, List.getElem?_toArray]

theorem pick_append (items : List α) (front back : List Nat) :
    pick items (front ++ back) = pick items front ++ pick items back :=
  List.filterMap_append

theorem map_pick (f : α → β) (items : List α) (positions : List Nat) :
    (pick items positions).map f = pick (items.map f) positions := by
  simp only [pick_eq_filterMap, List.map_filterMap, List.getElem?_map]

theorem pick_cons {p : Nat} (h : p < items.length) (rest : List Nat) :
    pick items (p :: rest) = items[p] :: pick items rest := by
  rw [pick_eq_filterMap, List.filterMap_cons, List.getElem?_eq_getElem h, pick_eq_filterMap]

theorem getElem?_pick (h : ∀ p ∈ positions, p < items.length) (i : Nat) :
    (pick items positions)[i]? = positions[i]?.bind (items[·]?) := by
  induction positions generalizing i with
  | nil => rfl
  | cons p rest ih =>
    obtain ⟨hp, hrest⟩ := List.forall_mem_cons.1 h
    rw [pick_cons hp]
    cases i with
    | zero => simp [hp]
    | succ i => rw [List.getElem?_cons_succ, List.getElem?_cons_succ, ih hrest]

/-- All positions in their order pick all items. -/
theorem pick_range (items : List α) : pick items (List.range items.length) = items := by
  refine List.ext_getElem? fun i => ?_
  rw [getElem?_pick fun p hp => List.mem_range.1 hp]
  by_cases hi : i < items.length
  · rw [List.getElem?_range hi, Option.bind_some]
  · rw [List.getElem?_eq_none (by simpa using hi), List.getElem?_eq_none (by simpa using hi),
      Option.bind_none]

/-- Positions that permute all positions pick a permutation of all items. -/
theorem pick_perm (h : positions.Perm (List.range items.length)) :
    (pick items positions).Perm items := by
  rw [pick_eq_filterMap]
  refine (h.filterMap _).trans ?_
  rw [← pick_eq_filterMap, pick_range]

/-- Positions that permute all positions in two parts pick two parts of all items. -/
theorem pick_append_pick_perm {front back : List Nat}
    (h : (front ++ back).Perm (List.range items.length)) :
    (pick items front ++ pick items back).Perm items := by
  rw [← pick_append]
  exact pick_perm h

theorem pick_zip {others : List β} (hlength : items.length = others.length)
    (h : ∀ p ∈ positions, p < items.length) :
    pick (items.zip others) positions = (pick items positions).zip (pick others positions) := by
  induction positions with
  | nil => rfl
  | cons p rest ih =>
    obtain ⟨hp, hrest⟩ := List.forall_mem_cons.1 h
    have hzip : p < (items.zip others).length := by
      rwa [List.length_zip, ← hlength, Nat.min_self]
    rw [pick_cons hzip, pick_cons hp, pick_cons (hlength ▸ hp), ih hrest, List.getElem_zip,
      List.zip_cons_cons]

end

/-! ## All or none -/

section

variable {α : Type u} {β : Type v} {f g : α → Option β} {as : List α}

theorem mapM_eq_some_iff {bs : List β} : as.mapM f = some bs ↔ as.map f = bs.map some := by
  induction as generalizing bs with
  | nil => cases bs <;> simp
  | cons a rest ih =>
    rw [List.mapM_cons]
    cases bs with
    | nil => simp [Option.bind_eq_some_iff]
    | cons b bs => simp [Option.bind_eq_some_iff, ih]

theorem exists_mapM_eq_some (h : ∀ a ∈ as, ∃ b, f a = some b) : ∃ bs, as.mapM f = some bs := by
  induction as with
  | nil => exact ⟨[], rfl⟩
  | cons a rest ih =>
    obtain ⟨⟨b, hb⟩, hrest⟩ := List.forall_mem_cons.1 h
    obtain ⟨bs, hbs⟩ := ih hrest
    exact ⟨b :: bs, by simp [hb, hbs]⟩

theorem mapM_congr_of_mem (h : ∀ a ∈ as, f a = g a) : as.mapM f = as.mapM g := by
  refine Option.ext fun bs => ?_
  rw [mapM_eq_some_iff, mapM_eq_some_iff, List.map_congr_left h]

end

/-! ## Cells -/

/-- A cell of a column of either type. -/
inductive Cell
  | numeric (value : Option Double)
  | categorical (value : Option String)
  deriving DecidableEq

namespace Cells

/-- The cells of a column one by one. -/
def toList : Cells → List Cell
  | .numeric values => values.map .numeric
  | .categorical values => values.map .categorical

@[simp] theorem length_toList (cells : Cells) : cells.toList.length = cells.length := by
  cases cells <;> exact List.length_map _

@[simp] theorem toList_take (cells : Cells) (positions : List Nat) :
    (cells.take positions).toList = pick cells.toList positions := by
  cases cells <;> exact map_pick ..

@[simp] theorem columnType_take (cells : Cells) (positions : List Nat) :
    (cells.take positions).columnType = cells.columnType := by
  cases cells <;> rfl

end Cells

/-- The cell of a column at a position. -/
def Column.cell? (c : Column) (i : Nat) : Option Cell := c.cells.toList[i]?

theorem Column.exists_cell?_iff {c : Column} {i : Nat} :
    (∃ cell, c.cell? i = some cell) ↔ i < c.length := by
  rw [cell?, ← Option.isSome_iff_exists, isSome_getElem?, Cells.length_toList]
  rfl

theorem Column.cell?_take {c : Column} {positions : List Nat}
    (h : ∀ p ∈ positions, p < c.length) (i : Nat) :
    (c.take positions).cell? i = positions[i]?.bind c.cell? := by
  have hcells : ∀ p ∈ positions, p < c.cells.toList.length := by rwa [Cells.length_toList]
  rw [cell?, take, Cells.toList_take, getElem?_pick hcells]
  rfl

/-! ## Rows -/

/-- A row of a table: its id, and its cells in the order of the columns. -/
structure Row where
  id : Nat
  cells : List Cell
  deriving DecidableEq

namespace Table

variable {t : Table} {positions : List Nat}

/-- The row at a position. -/
def row? (t : Table) (i : Nat) : Option Row := do
  return ⟨← t.index[i]?, ← t.columns.mapM (·.cell? i)⟩

/-- The rows from the first to the last. -/
def rows (t : Table) : List Row := (List.range t.numRows).filterMap t.row?

/-- Every position of a table has an id and a cell in every column. -/
theorem exists_row?_iff {i : Nat} : (∃ row, t.row? i = some row) ↔ i < t.numRows := by
  constructor
  · rintro ⟨row, hrow⟩
    obtain ⟨id, hid, -⟩ := Option.bind_eq_some_iff.1 hrow
    exact (List.getElem?_eq_some_iff.1 hid).1
  · intro hi
    have hcells : ∀ c ∈ t.columns, ∃ cell, c.cell? i = some cell := fun c hc =>
      Column.exists_cell?_iff.2 (Nat.lt_of_lt_of_eq hi (t.length_columns c hc).symm)
    obtain ⟨cells, hcells⟩ := exists_mapM_eq_some hcells
    exact ⟨⟨t.index[i], cells⟩, by rw [row?, List.getElem?_eq_getElem hi, hcells]; rfl⟩

theorem row?_eq_none {i : Nat} (h : t.numRows ≤ i) : t.row? i = none :=
  Option.eq_none_iff_forall_ne_some.2 fun row hrow =>
    absurd (exists_row?_iff.1 ⟨row, hrow⟩) (Nat.not_lt.2 h)

/-- None of the positions is left out. -/
theorem map_some_rows (t : Table) : t.rows.map some = (List.range t.numRows).map t.row? := by
  rw [rows, List.map_filterMap_some_eq_filter_map_isSome, List.filter_eq_self]
  intro row hrow
  obtain ⟨i, hi, rfl⟩ := List.mem_map.1 hrow
  exact Option.isSome_iff_exists.2 (exists_row?_iff.2 (List.mem_range.1 hi))

@[simp] theorem length_rows (t : Table) : t.rows.length = t.numRows := by
  rw [← List.length_map some, map_some_rows, List.length_map, List.length_range]

theorem getElem?_rows (t : Table) (i : Nat) : t.rows[i]? = t.row? i := by
  by_cases hi : i < t.numRows
  · have hrow := congrArg (·[i]?) t.map_some_rows
    simp only [List.getElem?_map, List.getElem?_range hi] at hrow
    rw [List.getElem?_eq_getElem (by rwa [length_rows])] at hrow ⊢
    exact Option.some.inj hrow
  · rw [row?_eq_none (Nat.not_lt.1 hi), List.getElem?_eq_none (by rw [length_rows]; omega)]

theorem row?_select (h : ∀ p ∈ positions, p < t.numRows) (i : Nat) :
    (t.select positions h).row? i = positions[i]?.bind t.row? := by
  rw [row?, select, getElem?_pick h]
  cases hp : positions[i]? with
  | none => rfl
  | some p =>
    have hcells : (t.columns.map (·.take positions)).mapM (·.cell? i) =
        t.columns.mapM (·.cell? p) := by
      rw [List.mapM_map]
      refine mapM_congr_of_mem fun c hc => ?_
      have hlength : ∀ q ∈ positions, q < c.length := fun q hq =>
        Nat.lt_of_lt_of_eq (h q hq) (t.length_columns c hc).symm
      rw [Function.comp_apply, Column.cell?_take hlength, hp, Option.bind_some]
    rw [Option.bind_some, Option.bind_some, row?, hcells]

theorem rows_select (h : ∀ p ∈ positions, p < t.numRows) :
    (t.select positions h).rows = pick t.rows positions := by
  refine List.ext_getElem? fun i => ?_
  rw [getElem?_rows, row?_select, getElem?_pick (by rwa [length_rows])]
  simp only [getElem?_rows]

@[simp] theorem schema_select (h : ∀ p ∈ positions, p < t.numRows) :
    (t.select positions h).schema = t.schema := by
  simp [schema, select, Column.take, Column.columnType]

end Table

/-! ## Picking with a check -/

section

variable {positions : List Nat} {rows p : Nat}

theorem firstBeyond_eq_none_iff :
    firstBeyond positions rows = none ↔ ∀ p ∈ positions, p < rows := by
  simp [firstBeyond]

/-- The position that is reported is the first one beyond the rows. -/
theorem firstBeyond_eq_some_iff :
    firstBeyond positions rows = some p ↔
      ∃ front back, positions = front ++ p :: back ∧ (∀ q ∈ front, q < rows) ∧ rows ≤ p := by
  simp only [firstBeyond, List.find?_eq_some_iff_append, decide_eq_true_eq, Bool.not_eq_true',
    decide_eq_false_iff_not, Nat.not_le]
  constructor
  · rintro ⟨hp, front, back, hsplit, hfront⟩
    exact ⟨front, back, hsplit, hfront, hp⟩
  · rintro ⟨front, back, hsplit, hfront, hp⟩
    exact ⟨hp, front, back, hsplit, hfront⟩

end

namespace Table

variable {t : Table} {positions : List Nat}

theorem take_of_lt (h : ∀ p ∈ positions, p < t.numRows) :
    t.take positions = .ok (t.select positions h) := by
  rw [take]
  split
  · next p hp =>
    rw [firstBeyond_eq_none_iff.2 h] at hp
    cases hp
  · rfl

theorem take_of_firstBeyond {p : Nat} (h : firstBeyond positions t.numRows = some p) :
    t.take positions = .error (.positionOutOfRange p t.numRows) := by
  rw [take]
  split
  · next q hq =>
    obtain rfl := Option.some.inj (h.symm.trans hq)
    rfl
  · next hnone =>
    rw [h] at hnone
    cases hnone

theorem exists_of_take_eq_ok {t' : Table} (h : t.take positions = .ok t') :
    ∃ hlt : ∀ p ∈ positions, p < t.numRows, t' = t.select positions hlt := by
  cases hbeyond : firstBeyond positions t.numRows with
  | some p =>
    rw [take_of_firstBeyond hbeyond] at h
    cases h
  | none =>
    have hlt := firstBeyond_eq_none_iff.1 hbeyond
    rw [take_of_lt hlt] at h
    exact ⟨hlt, (Except.ok.inj h).symm⟩

end Table

namespace Series

variable {s : Series} {positions : List Nat}

theorem take_of_lt (h : ∀ p ∈ positions, p < s.length) :
    s.take positions = .ok (s.select positions h) := by
  rw [take]
  split
  · next p hp =>
    rw [firstBeyond_eq_none_iff.2 h] at hp
    cases hp
  · rfl

theorem take_of_firstBeyond {p : Nat} (h : firstBeyond positions s.length = some p) :
    s.take positions = .error (.positionOutOfRange p s.length) := by
  rw [take]
  split
  · next q hq =>
    obtain rfl := Option.some.inj (h.symm.trans hq)
    rfl
  · next hnone =>
    rw [h] at hnone
    cases hnone

theorem exists_of_take_eq_ok {s' : Series} (h : s.take positions = .ok s') :
    ∃ hlt : ∀ p ∈ positions, p < s.length, s' = s.select positions hlt := by
  cases hbeyond : firstBeyond positions s.length with
  | some p =>
    rw [take_of_firstBeyond hbeyond] at h
    cases h
  | none =>
    have hlt := firstBeyond_eq_none_iff.1 hbeyond
    rw [take_of_lt hlt] at h
    exact ⟨hlt, (Except.ok.inj h).symm⟩

/-- A series is read by rows as the table of its one column. -/
def row? (s : Series) (i : Nat) : Option Row := s.toTable.row? i

/-- The rows from the first to the last. -/
def rows (s : Series) : List Row := s.toTable.rows

@[simp] theorem length_rows (s : Series) : s.rows.length = s.length := s.toTable.length_rows

theorem row?_select (h : ∀ p ∈ positions, p < s.length) (i : Nat) :
    (s.select positions h).row? i = positions[i]?.bind s.row? :=
  s.toTable.row?_select h i

theorem rows_select (h : ∀ p ∈ positions, p < s.length) :
    (s.select positions h).rows = pick s.rows positions :=
  s.toTable.rows_select h

end Series

end Tableflow
