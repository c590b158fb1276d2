import Tableflow.Proofs.Csv.Parsing

/-!
# Records of delimited text

A header and some records are written with a line for each of them (`document`). If their fields can
be told apart (`Writable`), the text is read as a table of these records in their order
(`parse_document`), with one exception: a record without a character that is not white space is
a blank line where the delimiter is white space itself, and it is dropped. A record of nothing but
empty cells is kept under a comma and lost under a tab (`tabs_lose_record`).
-/

namespace Tableflow.Csv

/-- A character that is not white space. -/
def Filled (text : List Char) : Prop := ∃ c ∈ text, Text.isBlank c = false

/-- The line of a record. -/
def recordLine (delimiter : Char) (record : List (List Char)) : List Char :=
  [delimiter].intercalate record

/-- The text of a header and some records, with a line for each of them. -/
def document (delimiter : Char) (names : List (List Char)) (records : List (List (List Char))) :
    String :=
  String.ofList ((names :: records).flatMap fun record => recordLine delimiter record ++ ['\n'])

/-- Names of several columns, and records with a field for each name. -/
structure Writable (delimiter : Char) (names : List (List Char))
    (records : List (List (List Char))) : Prop where
  no_break : delimiter ≠ '\n' ∧ delimiter ≠ '\r'
  several : 2 ≤ names.length
  names_filled : ∀ name ∈ names, Filled name
  names_nodup : (names.map fieldText).Nodup
  widths : ∀ record ∈ records, record.length = names.length
  fields : ∀ record ∈ names :: records, ∀ field ∈ record,
    ∀ c ∈ field, c ≠ delimiter ∧ c ≠ '\n' ∧ c ≠ '\r'

/-- A record that does not look like a blank line. -/
def Visible (delimiter : Char) (record : List (List Char)) : Prop :=
  Text.isBlank delimiter = false ∨ ∃ field ∈ record, Filled field

instance : DecidablePred Filled := fun text =>
  List.decidableBEx (fun c => Text.isBlank c = false) text

instance (delimiter : Char) : DecidablePred (Visible delimiter) := fun record =>
  inferInstanceAs (Decidable (_ ∨ ∃ field ∈ record, Filled field))

/-- A table has a row for each of some records, in their order. -/
structure RowsOf (names : List (List Char)) (records : List (List (List Char))) (t : Table) :
    Prop where
  index : t.index = List.range records.length
  names : t.names = names.map fieldText
  cells : ∀ (c : Nat) (column : Column), t.columns[c]? = some column → List.Forall₂
    (fun record cell => ∃ field, record[c]? = some field ∧ Spelled (fieldText field) cell)
    records column.cells.toList

section

variable {delimiter : Char} {names : List (List Char)} {records : List (List (List Char))}

theorem mem_recordLine_cons {field : List Char} {rest : List (List Char)} {c : Char} :
    c ∈ recordLine delimiter (field :: rest) ↔
      c ∈ field ∨ (rest ≠ [] ∧ c = delimiter) ∨ ∃ other ∈ rest, c ∈ other := by
  induction rest generalizing field with
  | nil => simp [recordLine]
  | cons next rest ih =>
    have hline : recordLine delimiter (field :: next :: rest) =
        field ++ delimiter :: recordLine delimiter (next :: rest) := by
      simp [recordLine]
    rw [hline, List.mem_append, List.mem_cons, ih]
    simp only [ne_eq, reduceCtorEq, not_false_eq_true, true_and, List.mem_cons, exists_eq_or_imp]
    tauto

/-- The line of several fields holds the delimiter and what stands in the fields. -/
theorem mem_recordLine {record : List (List Char)} (h : 2 ≤ record.length) {c : Char} :
    c ∈ recordLine delimiter record ↔ c = delimiter ∨ ∃ field ∈ record, c ∈ field := by
  match record, h with
  | first :: second :: rest, _ =>
    rw [mem_recordLine_cons]
    simp only [ne_eq, reduceCtorEq, not_false_eq_true, true_and, List.mem_cons, exists_eq_or_imp]
    tauto

theorem filled_recordLine_iff {record : List (List Char)} (h : 2 ≤ record.length) :
    Filled (recordLine delimiter record) ↔ Visible delimiter record := by
  simp only [Filled, Visible, mem_recordLine h]
  constructor
  · rintro ⟨c, rfl | ⟨field, hfield, hc⟩, hblank⟩
    · exact .inl hblank
    · exact .inr ⟨field, hfield, c, hc, hblank⟩
  · rintro (hblank | ⟨field, hfield, c, hc, hblank⟩)
    · exact ⟨delimiter, .inl rfl, hblank⟩
    · exact ⟨c, .inr ⟨field, hfield, hc⟩, hblank⟩

namespace Writable

variable (h : Writable delimiter names records)
include h

theorem several_of_mem {record : List (List Char)} (hrecord : record ∈ names :: records) :
    2 ≤ record.length := by
  rcases List.mem_cons.1 hrecord with rfl | hrecord
  · exact h.several
  · exact h.several.trans_eq (h.widths record hrecord).symm

theorem fields_recordLine {record : List (List Char)} (hrecord : record ∈ names :: records) :
    Text.fields delimiter (recordLine delimiter record) = record := by
  refine Text.fields_intercalate (fun field hfield hmem => ?_) ?_
  · exact (h.fields record hrecord field hfield delimiter hmem).1 rfl
  · exact List.ne_nil_of_length_pos (Nat.zero_lt_of_lt (h.several_of_mem hrecord))

theorem lines_document : Text.lines (document delimiter names records).toList =
    (names :: records).map (recordLine delimiter) := by
  rw [document, String.toList_ofList]
  have hbreaks : ∀ record ∈ names :: records, ∀ c ∈ recordLine delimiter record,
      c ≠ '\n' ∧ c ≠ '\r' := by
    intro record hrecord c hc
    rcases (mem_recordLine (h.several_of_mem hrecord)).1 hc with rfl | ⟨field, hfield, hc⟩
    · exact h.no_break
    · exact (h.fields record hrecord field hfield c hc).2
  generalize names :: records = all at hbreaks
  induction all with
  | nil => rfl
  | cons record rest ih =>
    obtain ⟨hrecord, hrest⟩ := List.forall_mem_cons.1 hbreaks
    rw [List.flatMap_cons, List.append_assoc, List.singleton_append,
      Text.lines_append_newline hrecord, ih hrest, List.map_cons]

theorem filledLines_document : filledLines (document delimiter names records) =
    recordLine delimiter names ::
      (records.filter (Visible delimiter ·)).map (recordLine delimiter) := by
  have hfilled : ∀ record ∈ names :: records,
      ((fun line => line.any fun c => !Text.isBlank c) ∘ recordLine delimiter) record =
        decide (Visible delimiter record) := by
    intro record hrecord
    rw [Function.comp_apply, Bool.eq_iff_iff, decide_eq_true_eq,
      ← filled_recordLine_iff (h.several_of_mem hrecord)]
    simp [Filled]
  have hnames : Visible delimiter names := by
    obtain ⟨name, hname⟩ := List.exists_mem_of_length_pos (Nat.zero_lt_of_lt h.several)
    exact .inr ⟨name, hname, h.names_filled name hname⟩
  rw [filledLines, h.lines_document, List.filter_map, List.filter_congr hfilled,
    List.filter_cons_of_pos (by simpa using hnames), List.map_cons]

theorem fieldTexts_recordLine {record : List (List Char)} (hrecord : record ∈ names :: records) :
    fieldTexts delimiter (recordLine delimiter record) = record.map fieldText := by
  rw [fieldTexts, h.fields_recordLine hrecord]

theorem width_recordLine {record : List (List Char)} (hrecord : record ∈ names :: records) :
    width delimiter (recordLine delimiter record) = record.length := by
  rw [width, h.fields_recordLine hrecord]

end Writable

/-- The table of some lines has a row for each of the records that they were written for. -/
theorem TableOf.rowsOf {t : Table} {kept : List (List (List Char))}
    (ht : TableOf delimiter (recordLine delimiter names) (kept.map (recordLine delimiter)) t)
    (htexts : ∀ record ∈ names :: kept,
      fieldTexts delimiter (recordLine delimiter record) = record.map fieldText) :
    RowsOf names kept t := by
  refine ⟨?_, ?_, fun c column hcolumn => ?_⟩
  · rw [ht.index, List.length_map]
  · rw [ht.names, htexts names List.mem_cons_self]
  · have hcells := List.forall₂_map_left_iff.1 (ht.cells c column hcolumn)
    have hkept : ∀ record ∈ kept,
        fieldTexts delimiter (recordLine delimiter record) = record.map fieldText :=
      fun record hrecord => htexts record (List.mem_cons_of_mem _ hrecord)
    refine ((List.forall₂_and_left ..).2 ⟨hkept, hcells⟩).imp ?_
    rintro record cell ⟨htext, text, hfield, hspelled⟩
    rw [htext, List.getElem?_map, Option.map_eq_some_iff] at hfield
    obtain ⟨field, hfield, rfl⟩ := hfield
    exact ⟨field, hfield, hspelled⟩

/-- The table of a written text has a row for each record that does not look like a blank line. -/
theorem parse_document (h : Writable delimiter names records) :
    ∃ t, parse (document delimiter names records) delimiter = .ok t ∧
      RowsOf names (records.filter (Visible delimiter ·)) t ∧
      (t.numRows = records.length ↔ ∀ record ∈ records, Visible delimiter record) := by
  have hkept : ∀ record ∈ names :: records.filter (Visible delimiter ·),
      record ∈ names :: records :=
    List.cons_subset_cons _ (List.filter_subset_self _)
  have hwidths : ∀ line ∈ (records.filter (Visible delimiter ·)).map (recordLine delimiter),
      width delimiter line = width delimiter (recordLine delimiter names) := by
    rw [List.forall_mem_map]
    intro record hrecord
    have hmem := List.mem_of_mem_filter hrecord
    rw [h.width_recordLine (List.mem_cons_of_mem _ hmem), h.width_recordLine List.mem_cons_self,
      h.widths record hmem]
  have hnodup : (fieldTexts delimiter (recordLine delimiter names)).Nodup := by
    rw [h.fieldTexts_recordLine List.mem_cons_self]
    exact h.names_nodup
  obtain ⟨t, ht, hsheet⟩ := (shaped_sheetOf_iff.2 hnodup).exists_withIndex_eq_ok
  have hrows := (tableOf_of_sheet hwidths hsheet).rowsOf fun record hrecord =>
    h.fieldTexts_recordLine (hkept record hrecord)
  refine ⟨t, (parse_of_even h.filledLines_document hwidths).trans ht, hrows, ?_⟩
  rw [Table.numRows, hrows.index, List.length_range, List.length_filter_eq_length_iff]
  simp

end

theorem writable_empty_record {delimiter : Char} (h : delimiter ∉ ['a', 'b', '\n', '\r']) :
    Writable delimiter [['a'], ['b']] [[[], []]] := by
  simp only [List.mem_cons, List.not_mem_nil, or_false, not_or] at h
  obtain ⟨ha, hb, hn, hr⟩ := h
  refine ⟨⟨hn, hr⟩, le_rfl, by decide, by decide +kernel, by simp, ?_⟩
  simp [Ne.symm ha, Ne.symm hb]

/-- With commas between the fields, a record of two empty fields is kept. -/
theorem commas_keep_record :
    Writable ',' [['a'], ['b']] [[[], []]] ∧
      ∃ t, parse (document ',' [['a'], ['b']] [[[], []]]) ',' = .ok t ∧ t.numRows = 1 := by
  have h : Writable ',' [['a'], ['b']] [[[], []]] := writable_empty_record (by decide)
  obtain ⟨t, ht, -, hrows⟩ := parse_document h
  exact ⟨h, t, ht, hrows.2 (by decide)⟩

/-- With tabs between the fields, a record of two empty fields is lost. -/
theorem tabs_lose_record :
    Writable '\t' [['a'], ['b']] [[[], []]] ∧
      ¬ ∃ t, parse (document '\t' [['a'], ['b']] [[[], []]]) '\t' = .ok t ∧ t.numRows = 1 := by
  refine ⟨writable_empty_record (by decide), ?_⟩
  rintro ⟨t, ht, hrows⟩
  have hlost : (parse (document '\t' [['a'], ['b']] [[[], []]]) '\t').toOption.map Table.numRows =
      some 0 := by
    decide +kernel
  rw [ht] at hlost
  obtain hzero : t.numRows = 0 := Option.some.inj hlost
  omega

end Tableflow.Csv
