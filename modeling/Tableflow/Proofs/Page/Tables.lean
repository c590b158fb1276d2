import Tableflow.Proofs.Page.Layout

/-!
# The tables of the overview page

Read back, the page shows a table for each type that has rows to show, and in it the cells of just
these rows (`sections_renderHtml`, `rowsUnder_renderHtml`). The page is read from its end on, so the
rows of a table are complete where its heading is met.
-/

namespace Tableflow.Comparison

open Page (Element Part)

/-! ## Reading the elements -/

theorem readBefore_cell {tag text : String} {r : Page.Reading} (h : Part.ofTag tag = .cell) :
    Page.readBefore (Row.cell tag text) r = { r with cells := text :: r.cells } := by
  have hend : ∀ e ∈ [Element.mk "/td" ""], Part.ofTag e.tag = .other := by decide +kernel
  rw [Row.cell, Page.readBefore_cons, Page.readBefore_of_other hend,
    Page.extend_of_cell (e := ⟨tag, text⟩) h]

theorem readBefore_cells (texts : List String) (r : Page.Reading) :
    Page.readBefore (texts.flatMap (Row.cell "td")) r = { r with cells := texts ++ r.cells } := by
  induction texts with
  | nil => rfl
  | cons text rest ih =>
    rw [List.flatMap_cons, Page.readBefore_append, ih, readBefore_cell (by decide +kernel)]
    rfl

theorem ofTag_shareTag (missing : Bool) : Part.ofTag (Row.shareTag missing) = .cell := by
  cases missing <;> decide +kernel

variable {shownRows : List (List String)} {sections : List (String × List (List String))}

/-- A row of the page is read as its cells. -/
theorem readBefore_row (row : Row) :
    Page.readBefore row.elements ⟨[], shownRows, sections⟩ =
      ⟨[], row.cells :: shownRows, sections⟩ := by
  have hend : ∀ e ∈ [Element.mk "/tr" "\n"], Part.ofTag e.tag = .other := by decide +kernel
  have htd : Part.ofTag "td" = .cell := by decide +kernel
  rw [Row.elements, List.cons_append, Page.readBefore_cons]
  simp only [Page.readBefore_append, Page.readBefore_of_other hend, readBefore_cells,
    readBefore_cell htd, readBefore_cell (ofTag_shareTag _), List.append_nil]
  exact Page.extend_of_row (e := ⟨"tr", ""⟩) (by decide +kernel) (by simp)

theorem readBefore_rows (rows : List Row) :
    Page.readBefore (rows.flatMap Row.elements) ⟨[], shownRows, sections⟩ =
      ⟨[], rows.map Row.cells ++ shownRows, sections⟩ := by
  induction rows with
  | nil => rfl
  | cons row rest ih =>
    rw [List.flatMap_cons, Page.readBefore_append, ih, readBefore_row, List.map_cons,
      List.cons_append]

/-- The heads of columns are no cells of data. -/
theorem readBefore_headingElements (type : ColumnType) :
    Page.readBefore (headingElements type) ⟨[], shownRows, sections⟩ =
      ⟨[], [], (title type, shownRows) :: sections⟩ := by
  have hheads : ∀ e ∈ (heads type).flatMap (fun head => [⟨"th", head⟩, ⟨"/th", ""⟩]) ++
      [Element.mk "/tr" "\n"], Part.ofTag e.tag = .other := by
    cases type <;> decide +kernel
  have hopen : ∀ e ∈ [Element.mk "/h2" "\n", ⟨"table", "\n"⟩], Part.ofTag e.tag = .other := by
    decide +kernel
  have hrow : Page.readBefore [⟨"tr", ""⟩] ⟨[], shownRows, sections⟩ =
      ⟨[], shownRows, sections⟩ := by
    rw [Page.readBefore_cons]
    exact Page.extend_of_row_of_nil (e := ⟨"tr", ""⟩) (by decide +kernel) rfl
  rw [headingElements, List.append_assoc, Page.readBefore_append, Page.readBefore_of_other hheads,
    show [Element.mk "h2" (title type), ⟨"/h2", "\n"⟩, ⟨"table", "\n"⟩, ⟨"tr", ""⟩] =
      [⟨"h2", title type⟩] ++ ([⟨"/h2", "\n"⟩, ⟨"table", "\n"⟩] ++ [⟨"tr", ""⟩]) from rfl,
    Page.readBefore_append, Page.readBefore_append, hrow, Page.readBefore_of_other hopen]
  have hh2 : Part.ofTag "h2" = .heading := by decide +kernel
  exact Page.extend_of_heading (e := ⟨"h2", title type⟩) hh2

/-- The table that a page shows for some rows, left out if there are none. -/
def shownTable (type : ColumnType) : List Row → List (String × List (List String))
  | [] => []
  | r :: rest => [(title type, (r :: rest).map Row.cells)]

theorem readBefore_tableElements (type : ColumnType) (rows : List Row) :
    Page.readBefore (tableElements type rows) ⟨[], [], sections⟩ =
      ⟨[], [], shownTable type rows ++ sections⟩ := by
  cases rows with
  | nil => rfl
  | cons row rest =>
    have hend : ∀ e ∈ [Element.mk "/table" "\n"], Part.ofTag e.tag = .other := by decide +kernel
    rw [tableElements_of_ne_nil (by simp), Page.readBefore_append, Page.readBefore_append,
      Page.readBefore_of_other hend, readBefore_rows, List.append_nil, readBefore_headingElements]
    rfl

/-- The sections of the page are its tables, behind a start without rows. -/
theorem sections_renderHtml (c : Comparison) :
    Page.sections c.renderHtml = ("", []) ::
      (shownTable .numeric (c.shown .numeric) ++
        shownTable .categorical (c.shown .categorical)) := by
  have hstart : ∀ e ∈ c.startElements, Part.ofTag e.tag = .other := fun e he =>
    (by decide +kernel : ∀ tag ∈ startTags, Part.ofTag tag = .other) e.tag
      (List.mem_map_of_mem (f := Element.tag) he)
  have hend : ∀ e ∈ endElements, Part.ofTag e.tag = .other := by decide +kernel
  rw [Page.sections, renderHtml_eq_write, Page.elements_write c.proper_of_mem_elements, elements,
    Page.readBefore_append, Page.readBefore_append, Page.readBefore_append,
    Page.readBefore_of_other hend, readBefore_tableElements, List.append_nil,
    readBefore_tableElements, Page.readBefore_of_other hstart]

theorem rowsUnder_shownTable (type : ColumnType) (rows : List Row) :
    ((shownTable type rows).filter fun s => s.1 = title type).flatMap Prod.snd =
      rows.map Row.cells := by
  cases rows <;> simp [shownTable]

theorem rowsUnder_shownTable_of_ne {type other : ColumnType} (h : type ≠ other)
    (rows : List Row) : ((shownTable type rows).filter fun s => s.1 = title other) = [] := by
  have hne : title type ≠ title other := by
    revert h
    cases type <;> cases other <;> decide
  cases rows <;> simp [shownTable, hne]

/-- The rows that the page shows under the heading of a type. -/
theorem rowsUnder_renderHtml (c : Comparison) (type : ColumnType) :
    Page.rowsUnder (title type) c.renderHtml = (c.shown type).map Row.cells := by
  have hstart : "" ≠ title type := by
    cases type <;> decide
  rw [Page.rowsUnder, sections_renderHtml, List.filter_cons_of_neg (by simpa using hstart),
    List.filter_append, List.flatMap_append]
  cases type with
  | numeric =>
    rw [rowsUnder_shownTable, rowsUnder_shownTable_of_ne (by decide), List.flatMap_nil,
      List.append_nil]
  | categorical =>
    rw [rowsUnder_shownTable, rowsUnder_shownTable_of_ne (by decide), List.flatMap_nil,
      List.nil_append]

end Tableflow.Comparison
