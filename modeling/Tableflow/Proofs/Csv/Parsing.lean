import Mathlib.Data.List.Forall2
import Tableflow.Proofs.Table.Checks
import Tableflow.Proofs.Table.Rows
import Tableflow.Proofs.Text
import Tableflow.Table.Csv

/-!
# Which texts spell tables

The lines of a text that hold more than white space (`filledLines`) make a table just if there is a
first one, it names the columns apart, and all others have as many fields (`Rectangular`). The table
then holds what stands in their fields (`TableOf`): a cell is told by its trimmed field (`Spelled`),
and a column is numeric just if each of its fields is missing or spells a number (`NumberLike`).
Otherwise the first flaw is reported (`Flawed`), where a line with a wrong number of fields comes
before a repeated name. The main statement is `parse_admits`.
-/

namespace Tableflow.Csv

/-! ## Fields and cells -/

/-- The lines of a text that hold more than white space. -/
def filledLines (content : String) : List (List Char) :=
  (Text.lines content.toList).filter fun line => line.any fun c => !Text.isBlank c

/-- How many fields a line has. -/
def width (delimiter : Char) (line : List Char) : Nat := (Text.fields delimiter line).length

/-- The texts of the fields of a line, trimmed. -/
def fieldTexts (delimiter : Char) (line : List Char) : List String :=
  (Text.fields delimiter line).map fieldText

/-- The cell that a trimmed field spells, in a column of either type. -/
inductive Spelled (text : String) : Cell → Prop
  | missingNumber : text ∈ missingMarkers → Spelled text (.numeric none)
  | number {x : Double} : text ∉ missingMarkers → Decimal.read text = .ok x →
    Spelled text (.numeric (some x))
  | missingText : text ∈ missingMarkers → Spelled text (.categorical none)
  | text : text ∉ missingMarkers → Spelled text (.categorical (some text))

/-- A trimmed field that is missing or spells a number. -/
def NumberLike (text : String) : Prop :=
  text ∈ missingMarkers ∨ ∃ x, Decimal.read text = .ok x

theorem toOption_read_eq_some_iff {text : String} {x : Double} :
    (Decimal.read text).toOption = some x ↔ Decimal.read text = .ok x := by
  cases Decimal.read text <;> simp [Except.toOption]

theorem cell_of_missing {field : List Char} (h : fieldText field ∈ missingMarkers) :
    cell field = none :=
  if_pos h

theorem cell_of_not_missing {field : List Char} (h : fieldText field ∉ missingMarkers) :
    cell field = some (fieldText field) :=
  if_neg h

theorem spelled_categorical_cell (field : List Char) :
    Spelled (fieldText field) (.categorical (cell field)) := by
  by_cases h : fieldText field ∈ missingMarkers
  · rw [cell_of_missing h]
    exact .missingText h
  · rw [cell_of_not_missing h]
    exact .text h

theorem spelled_of_numericCell {field : List Char} {value : Option Double}
    (h : numericCell (cell field) = some value) :
    Spelled (fieldText field) (.numeric value) := by
  by_cases hmissing : fieldText field ∈ missingMarkers
  · rw [cell_of_missing hmissing] at h
    obtain rfl := Option.some.inj h
    exact .missingNumber hmissing
  · rw [cell_of_not_missing hmissing, numericCell, Option.map_eq_some_iff] at h
    obtain ⟨x, hx, rfl⟩ := h
    exact .number hmissing (toOption_read_eq_some_iff.1 hx)

theorem exists_numericCell_iff {field : List Char} :
    (∃ value, numericCell (cell field) = some value) ↔ NumberLike (fieldText field) := by
  by_cases hmissing : fieldText field ∈ missingMarkers
  · rw [cell_of_missing hmissing]
    exact iff_of_true ⟨none, rfl⟩ (.inl hmissing)
  · rw [cell_of_not_missing hmissing, numericCell, NumberLike, or_iff_right hmissing]
    simp [toOption_read_eq_some_iff]

/-! ## Columns -/

section

variable (fields : List (List Char))

/-- A column is numeric just if all its fields are missing or spell numbers. -/
theorem columnType_inferCells :
    (inferCells (fields.map cell)).columnType = .numeric ↔
      ∀ field ∈ fields, NumberLike (fieldText field) := by
  simp only [← exists_numericCell_iff]
  rw [inferCells]
  cases hvalues : (fields.map cell).mapM numericCell with
  | some values =>
    refine iff_of_true rfl fun field hfield => ?_
    have hmem : numericCell (cell field) ∈ values.map some := by
      rw [← mapM_eq_some_iff.1 hvalues]
      exact List.mem_map_of_mem (List.mem_map_of_mem hfield)
    obtain ⟨value, -, hvalue⟩ := List.mem_map.1 hmem
    exact ⟨value, hvalue.symm⟩
  | none =>
    refine iff_of_false (fun h => nomatch h) fun h => ?_
    obtain ⟨values, hsome⟩ := exists_mapM_eq_some (List.forall_mem_map.2 h)
    rw [hvalues] at hsome
    cases hsome

/-- The cells of a column are spelled by its fields, one by one. -/
theorem forall₂_inferCells :
    List.Forall₂ (fun field cell => Spelled (fieldText field) cell) fields
      (inferCells (fields.map cell)).toList := by
  rw [inferCells]
  cases hvalues : (fields.map cell).mapM numericCell with
  | some values =>
    have hcells : List.Forall₂ (fun field value => numericCell (cell field) = some value)
        fields values := by
      have heq := mapM_eq_some_iff.1 hvalues
      rwa [List.map_map, ← List.forall₂_eq_eq_eq, List.forall₂_map_left_iff,
        List.forall₂_map_right_iff] at heq
    exact List.forall₂_map_right_iff.2 (hcells.imp fun _ _ => spelled_of_numericCell)
  | none =>
    refine List.forall₂_map_right_iff.2 (List.forall₂_map_right_iff.2 ?_)
    exact List.forall₂_same.2 fun field _ => spelled_categorical_cell field

end

/-! ## Texts -/

/-- Every line has as many fields as the first one, which names the columns apart. -/
structure Rectangular (delimiter : Char) (header : List Char) (lines : List (List Char)) :
    Prop where
  widths : ∀ line ∈ lines, width delimiter line = width delimiter header
  names_nodup : (fieldTexts delimiter header).Nodup

/-- A table holds what stands in the fields of some lines, line by line under their header. -/
structure TableOf (delimiter : Char) (header : List Char) (lines : List (List Char)) (t : Table) :
    Prop where
  index : t.index = List.range lines.length
  names : t.names = fieldTexts delimiter header
  numeric_iff : ∀ (c : Nat) (column : Column), t.columns[c]? = some column →
    (column.columnType = .numeric ↔
      ∀ line ∈ lines, ∀ text, (fieldTexts delimiter line)[c]? = some text → NumberLike text)
  cells : ∀ (c : Nat) (column : Column), t.columns[c]? = some column → List.Forall₂
    (fun line cell => ∃ text, (fieldTexts delimiter line)[c]? = some text ∧ Spelled text cell)
    lines column.cells.toList

/-- The first flaw that keeps some lines from being a table. Lines are numbered from the header,
which is the first. -/
inductive Flawed (delimiter : Char) : List (List Char) → TableDefect → Prop
  | empty : Flawed delimiter [] .emptyText
  | uneven {header line : List Char} {front back : List (List Char)} :
    (∀ other ∈ front, width delimiter other = width delimiter header) →
    width delimiter line ≠ width delimiter header →
    Flawed delimiter (header :: (front ++ line :: back))
      (.fieldCount (front.length + 2) (width delimiter line) (width delimiter header))
  | repeated {header : List Char} {lines : List (List Char)} {name : String}
    {before after : List String} :
    (∀ line ∈ lines, width delimiter line = width delimiter header) →
    fieldTexts delimiter header = before ++ name :: after → before.Nodup → name ∈ before →
    Flawed delimiter (header :: lines) (.duplicateColumn name)

theorem records_eq_filledLines (content : String) : records content = filledLines content := by
  refine List.filter_congr fun line _ => Bool.eq_iff_iff.2 ?_
  simp [Text.trim_eq_nil_iff]

section

variable {delimiter : Char} {header : List Char} {lines : List (List Char)}

theorem splitRows_of_even (number : Nat) {expected : Nat}
    (h : ∀ line ∈ lines, width delimiter line = expected) :
    splitRows delimiter expected number lines = .ok (lines.map (Text.fields delimiter)) := by
  induction lines generalizing number with
  | nil => rfl
  | cons line rest ih =>
    obtain ⟨hline, hrest⟩ := List.forall_mem_cons.1 h
    rw [splitRows, ih _ hrest]
    exact if_neg (not_not.2 hline)

/-- The first line of a wrong width is reported by its number. -/
theorem splitRows_of_uneven (number : Nat) {expected : Nat} {front back : List (List Char)}
    {line : List Char} (hfront : ∀ other ∈ front, width delimiter other = expected)
    (hline : width delimiter line ≠ expected) :
    splitRows delimiter expected number (front ++ line :: back) =
      .error (.fieldCount (number + front.length) (width delimiter line) expected) := by
  induction front generalizing number with
  | nil =>
    rw [List.nil_append, splitRows]
    exact if_pos hline
  | cons other rest ih =>
    obtain ⟨hother, hrest⟩ := List.forall_mem_cons.1 hfront
    rw [List.cons_append, splitRows, ih _ hrest, List.length_cons, Nat.add_assoc, Nat.add_comm 1]
    exact if_neg (not_not.2 hother)

/-- The columns of lines of the same width. -/
def columnsOf (delimiter : Char) (header : List Char) (lines : List (List Char)) : List Column :=
  (fieldTexts delimiter header).mapIdx fun c name =>
    ⟨name, inferCells (columnCells ((lines.map (Text.fields delimiter)).map List.toArray) c)⟩

/-- The data of lines of the same width. -/
def sheetOf (delimiter : Char) (header : List Char) (lines : List (List Char)) : Sheet :=
  ⟨List.range lines.length, columnsOf delimiter header lines⟩

theorem length_inferCells (cells : List (Option String)) :
    (inferCells cells).length = cells.length := by
  rw [inferCells]
  cases hvalues : cells.mapM numericCell with
  | none => rfl
  | some values =>
    have hlength := congrArg List.length (mapM_eq_some_iff.1 hvalues)
    rw [List.length_map, List.length_map] at hlength
    exact hlength.symm

theorem length_of_mem_columnsOf {column : Column} (h : column ∈ columnsOf delimiter header lines) :
    column.length = lines.length := by
  obtain ⟨c, hc, rfl⟩ := List.mem_mapIdx.1 h
  rw [Column.length, length_inferCells]
  simp [columnCells]

theorem names_columnsOf :
    (columnsOf delimiter header lines).map (·.name) = fieldTexts delimiter header := by
  refine List.ext_getElem? fun c => ?_
  simp [columnsOf, Function.comp_def]

/-- Lines of the same width are parsed by checking their columns. -/
theorem parse_of_even {content : String} (hlines : filledLines content = header :: lines)
    (h : ∀ line ∈ lines, width delimiter line = width delimiter header) :
    parse content delimiter =
      Table.withIndex (sheetOf delimiter header lines).index
        (sheetOf delimiter header lines).columns := by
  have hrows : splitRows delimiter ((Text.fields delimiter header).map fieldText).length 2 lines =
      .ok (lines.map (Text.fields delimiter)) := by
    rw [List.length_map]
    exact splitRows_of_even 2 h
  have hhead : (columnsOf delimiter header lines).head?.elim 0 Column.length = lines.length := by
    cases hcolumns : columnsOf delimiter header lines with
    | nil =>
      have hnames : (columnsOf delimiter header lines).map (·.name) = fieldTexts delimiter header :=
        names_columnsOf
      rw [hcolumns] at hnames
      exact absurd (List.map_eq_nil_iff.1 hnames.symm) (Text.fields_ne_nil header)
    | cons first rest =>
      exact length_of_mem_columnsOf (hcolumns ▸ List.mem_cons_self)
  rw [parse, records_eq_filledLines, hlines]
  simp only [hrows]
  rw [sheetOf, ← hhead]
  rfl

/-- A column of lines of the same width is inferred from a field of each line. -/
theorem exists_field_of_getElem?
    (h : ∀ line ∈ lines, width delimiter line = width delimiter header)
    {c : Nat} {column : Column} (hcolumn : (columnsOf delimiter header lines)[c]? = some column) :
    ∃ field : List Char → List Char, column.cells = inferCells ((lines.map field).map cell) ∧
      ∀ line ∈ lines, (Text.fields delimiter line)[c]? = some (field line) := by
  rw [columnsOf, List.getElem?_mapIdx, Option.map_eq_some_iff] at hcolumn
  obtain ⟨name, hname, rfl⟩ := hcolumn
  have hc : c < width delimiter header := by
    have hlt := (List.getElem?_eq_some_iff.1 hname).1
    rwa [fieldTexts, List.length_map] at hlt
  refine ⟨fun line => (Text.fields delimiter line)[c]?.getD [], ?_, fun line hline => ?_⟩
  · simp [columnCells, Function.comp_def]
  · have hlt : c < (Text.fields delimiter line).length := Nat.lt_of_lt_of_eq hc (h line hline).symm
    simp [List.getElem?_eq_getElem hlt]

/-- The table of the columns holds what stands in the fields. -/
theorem tableOf_of_sheet (h : ∀ line ∈ lines, width delimiter line = width delimiter header)
    {t : Table} (ht : t.sheet = sheetOf delimiter header lines) :
    TableOf delimiter header lines t := by
  have hindex : t.index = List.range lines.length := congrArg Sheet.index ht
  have hcolumns : t.columns = columnsOf delimiter header lines := congrArg Sheet.columns ht
  refine ⟨hindex, ?_, fun c column hcolumn => ?_, fun c column hcolumn => ?_⟩
  · rw [Table.names, hcolumns, names_columnsOf]
  all_goals
    rw [hcolumns] at hcolumn
    obtain ⟨field, hcells, hfield⟩ := exists_field_of_getElem? h hcolumn
    have htext : ∀ line ∈ lines,
        (fieldTexts delimiter line)[c]? = some (fieldText (field line)) := fun line hline => by
      rw [fieldTexts, List.getElem?_map, hfield line hline, Option.map_some]
  · rw [Column.columnType, hcells, columnType_inferCells, List.forall_mem_map]
    refine forall₂_congr fun line hline => ?_
    simp [htext line hline]
  · rw [hcells]
    have hspelled := List.forall₂_map_left_iff.1 (forall₂_inferCells (lines.map field))
    exact ((List.forall₂_and_left ..).2 ⟨htext, hspelled⟩).imp fun line cell hcell => ⟨_, hcell⟩

/-- Some lines are all of the width of the header, or one is the first that is not. -/
theorem even_or_uneven (delimiter : Char) (header : List Char) (lines : List (List Char)) :
    (∀ line ∈ lines, width delimiter line = width delimiter header) ∨
      ∃ front line back, lines = front ++ line :: back ∧
        (∀ other ∈ front, width delimiter other = width delimiter header) ∧
          width delimiter line ≠ width delimiter header := by
  cases hfind : lines.find? fun line => width delimiter line ≠ width delimiter header with
  | none => exact .inl (by simpa using hfind)
  | some line =>
    obtain ⟨hline, front, back, hsplit, hfront⟩ := List.find?_eq_some_iff_append.1 hfind
    exact .inr ⟨front, line, back, hsplit, by simpa using hfront, by simpa using hline⟩

/-- The sheet of lines of the same width is shaped just if the names are distinct. -/
theorem shaped_sheetOf_iff : (sheetOf delimiter header lines).Shaped ↔
    (fieldTexts delimiter header).Nodup := by
  constructor
  · rintro ⟨hnodup, -⟩
    rwa [sheetOf, names_columnsOf] at hnodup
  · intro hnodup
    refine ⟨?_, fun column hcolumn => ?_⟩
    · rwa [sheetOf, names_columnsOf]
    · rw [length_of_mem_columnsOf hcolumn, sheetOf, List.length_range]

/-- The sheet of lines of the same width offends just by repeating a name. -/
theorem offends_sheetOf_iff {defect : TableDefect} :
    (sheetOf delimiter header lines).Offends defect ↔
      ∃ before name after, fieldTexts delimiter header = before ++ name :: after ∧
        before.Nodup ∧ name ∈ before ∧ defect = .duplicateColumn name := by
  rw [show fieldTexts delimiter header = (columnsOf delimiter header lines).map (·.name) from
    names_columnsOf.symm]
  constructor
  · rintro ⟨front, c, back, hsplit, hfront, hoffence⟩
    have hsplit : columnsOf delimiter header lines = front ++ c :: back := hsplit
    cases hoffence with
    | repeated hname =>
      exact ⟨_, c.name, _, by rw [hsplit, List.map_append, List.map_cons], hfront.nodup_names,
        hname, rfl⟩
    | length _ hlength =>
      have hc : c ∈ columnsOf delimiter header lines := hsplit ▸ by simp
      rw [length_of_mem_columnsOf hc, sheetOf, List.length_range] at hlength
      exact absurd rfl hlength
  · rintro ⟨before, name, after, hsplit, hnodup, hname, rfl⟩
    obtain ⟨front, rest, hcolumns, rfl, hrest⟩ := List.map_eq_append_iff.1 hsplit
    obtain ⟨c, back, rfl, rfl, -⟩ := List.map_eq_cons_iff.1 hrest
    refine ⟨front, c, back, hcolumns, ⟨hnodup, fun d hd => ?_⟩, .repeated hname⟩
    have hmem : d ∈ columnsOf delimiter header lines := hcolumns ▸ List.mem_append_left _ hd
    rw [length_of_mem_columnsOf hmem, sheetOf, List.length_range]

end

theorem parse_of_flawed {content : String} {delimiter : Char} {defect : TableDefect}
    (h : Flawed delimiter (filledLines content) defect) :
    parse content delimiter = .error defect := by
  generalize hlines : filledLines content = lines at h
  cases h with
  | empty => rw [parse, records_eq_filledLines, hlines]
  | @uneven header line front back hfront hline =>
    have hrows : splitRows delimiter ((Text.fields delimiter header).map fieldText).length 2
        (front ++ line :: back) = .error (.fieldCount (front.length + 2) (width delimiter line)
          (width delimiter header)) := by
      rw [List.length_map, Nat.add_comm front.length]
      exact splitRows_of_uneven 2 hfront hline
    rw [parse, records_eq_filledLines, hlines]
    simp only [hrows]
    rfl
  | repeated hwidths hsplit hnodup hname =>
    rw [parse_of_even hlines hwidths]
    exact (offends_sheetOf_iff.2 ⟨_, _, _, hsplit, hnodup, hname, rfl⟩).withIndex_eq_error

/-- What is parsed is the table of the lines of a text, or their first flaw. -/
theorem parse_admits (content : String) (delimiter : Char) :
    Admits
      (∃ header lines, filledLines content = header :: lines ∧ Rectangular delimiter header lines)
      (Flawed delimiter (filledLines content))
      (fun t => ∃ header lines, filledLines content = header :: lines ∧
        TableOf delimiter header lines t)
      id (parse content delimiter) := by
  refine .of_or ?_ ?_ fun _ => parse_of_flawed
  · cases hlines : filledLines content with
    | nil => exact .inr ⟨_, .empty⟩
    | cons header lines =>
      rcases even_or_uneven delimiter header lines with
        hwidths | ⟨front, line, back, rfl, hfront, hline⟩
      · rcases (sheetOf delimiter header lines).shaped_or_offends with hshaped | ⟨_, hoffends⟩
        · exact .inl ⟨header, lines, rfl, hwidths, shaped_sheetOf_iff.1 hshaped⟩
        · obtain ⟨_, _, _, hsplit, hnodup, hname, rfl⟩ := offends_sheetOf_iff.1 hoffends
          exact .inr ⟨_, .repeated hwidths hsplit hnodup hname⟩
      · exact .inr ⟨_, .uneven hfront hline⟩
  · rintro ⟨header, lines, hlines, hwidths, hnodup⟩
    obtain ⟨t, ht, hsheet⟩ := (shaped_sheetOf_iff.2 hnodup).exists_withIndex_eq_ok
    exact ⟨t, (parse_of_even hlines hwidths).trans ht, header, lines, hlines,
      tableOf_of_sheet hwidths hsheet⟩

end Tableflow.Csv
