import Tableflow.Facets.HtmlOverview
import Tableflow.Proofs.Page.Reader

/-!
# The rows of the overview page

A row shows a feature on one side (`Row`). The page is written from elements (`elements`,
`renderHtml_eq_write`): the ones at the start, then for each type of features with rows to show a
heading and the rows, then the ones at the end.
-/

namespace Tableflow

open Page (Element)

/-! ## Rows -/

/-- The number of missing cells. -/
def FeatureKind.missing : FeatureKind → Nat
  | .numeric s => s.missing
  | .categorical s => s.missing

/-- The cells for what is told about features of one type only. -/
def FeatureKind.details : FeatureKind → List String
  | .numeric s =>
    [writeStatistic s.mean, writeStatistic s.stdDev, toString s.zeros, writeStatistic s.min,
      writeStatistic s.median, writeStatistic s.max]
  | .categorical s =>
    [toString s.unique, s.top.getD "-", toString s.topFrequency, writeStatistic s.avgLength]

namespace Comparison

/-- A feature on the side of a dataset. -/
structure Row where
  dataset : String
  feature : FeatureStatistics
  deriving DecidableEq

namespace Row

/-- What the cells of the row say. -/
def cells (r : Row) : List String :=
  [r.feature.name, r.dataset, toString r.feature.count,
    writePercentage r.feature.missingRate ++ "%"] ++ r.feature.stats.details

def cell (tag text : String) : List Element := [⟨tag, text⟩, ⟨"/td", ""⟩]

/-- The tag of the cell for the share of missing cells. -/
def shareTag (missing : Bool) : String := if missing then "td class=\"missing\"" else "td"

/-- The row as it stands in the page. -/
def elements (r : Row) : List Element :=
  ⟨"tr", ""⟩ :: (cell "td" r.feature.name ++ cell "td" r.dataset ++
    cell "td" (toString r.feature.count) ++
    cell (shareTag (0 < r.feature.stats.missing)) (writePercentage r.feature.missingRate ++ "%") ++
    r.feature.stats.details.flatMap (cell "td")) ++ [⟨"/tr", "\n"⟩]

end Row

variable {c : Comparison}

/-- The row of a name on one side, if the feature is of a type there. -/
def row? (type : ColumnType) (name : String) (side : DatasetStatistics) : Option Row :=
  ((side.feature? name).filter fun f => f.columnType = type).map (Row.mk side.name)

theorem row?_of_feature? {type : ColumnType} {name : String} {side : DatasetStatistics}
    {f : FeatureStatistics} (h : side.feature? name = some f) :
    row? type name side = if f.columnType = type then some ⟨side.name, f⟩ else none := by
  rw [row?, h]
  by_cases htype : f.columnType = type <;> simp [htype]

/-- The rows that the table of a type shows. -/
def shown (c : Comparison) (type : ColumnType) : List Row :=
  (c.tableFeatures type).flatMap fun name =>
    c.sides.flatMap fun side => (row? type name side).toList

/-- There is a row for every feature of a table. -/
theorem shown_eq_nil_iff {type : ColumnType} : c.shown type = [] ↔ c.tableFeatures type = [] := by
  refine ⟨fun h => List.eq_nil_iff_forall_not_mem.2 fun name hname => ?_, fun h => by
    rw [shown, h, List.flatMap_nil]⟩
  have hleading : c.leadingType? name = some type := by
    simpa using (List.mem_filter.1 hname).2
  obtain ⟨f, hfirst, rfl⟩ := Option.map_eq_some_iff.1 hleading
  obtain ⟨side, hside, hf⟩ := List.exists_of_findSome?_eq_some hfirst
  have hrow : row? f.columnType name side = some ⟨side.name, f⟩ := by
    rw [row?_of_feature? hf, if_pos rfl]
  have hmem : Row.mk side.name f ∈ c.shown f.columnType :=
    List.mem_flatMap.2 ⟨name, hname, List.mem_flatMap.2 ⟨side, hside, by simp [hrow]⟩⟩
  rw [h] at hmem
  cases hmem

/-! ## Elements -/

/-- The heading of the table of a type. -/
def title : ColumnType → String
  | .numeric => "Numeric features"
  | .categorical => "Categorical features"

/-- The heads of the columns. -/
def heads : ColumnType → List String
  | .numeric =>
    ["feature", "dataset", "count", "missing", "mean", "std dev", "zeros", "min", "median", "max"]
  | .categorical =>
    ["feature", "dataset", "count", "missing", "unique", "top", "freq top", "avg str len"]

def headingElements (type : ColumnType) : List Element :=
  [⟨"h2", title type⟩, ⟨"/h2", "\n"⟩, ⟨"table", "\n"⟩, ⟨"tr", ""⟩] ++
    (heads type).flatMap (fun head => [⟨"th", head⟩, ⟨"/th", ""⟩]) ++ [⟨"/tr", "\n"⟩]

/-- The table of some rows, left out if there are none. -/
def tableElements (type : ColumnType) : List Row → List Element
  | [] => []
  | rows => headingElements type ++ rows.flatMap Row.elements ++ [⟨"/table", "\n"⟩]

theorem tableElements_of_ne_nil {type : ColumnType} {rows : List Row} (h : rows ≠ []) :
    tableElements type rows =
      headingElements type ++ rows.flatMap Row.elements ++ [⟨"/table", "\n"⟩] := by
  obtain ⟨r, rest, rfl⟩ := List.exists_cons_of_ne_nil h
  rfl

/-- The rules for the looks, without their tags. -/
def styleRules : String :=
  "body\x7bfont-family:sans-serif\x7dtable\x7bborder-collapse:collapse;" ++
    "margin-bottom:2em\x7dth,td\x7bborder:1px solid #ccc;padding:4px 8px;text-align:right\x7d" ++
    "th:first-child,td:first-child\x7btext-align:left\x7d.missing\x7bcolor:#c00\x7d"

def headElements : List Element :=
  [⟨"!DOCTYPE html", "\n"⟩, ⟨"html", "\n"⟩, ⟨"head", "\n"⟩, ⟨"meta charset=\"utf-8\"", "\n"⟩]

/-- The elements between the title and the paragraph that names the two tables. -/
def middleElements : List Element :=
  [⟨"/title", "\n"⟩, ⟨"style", styleRules⟩, ⟨"/style", "\n"⟩, ⟨"/head", "\n"⟩, ⟨"body", "\n"⟩,
    ⟨"h1", "Facets overview"⟩, ⟨"/h1", "\n"⟩]

/-- The elements in front of the tables. -/
def startElements (c : Comparison) : List Element :=
  headElements ++
    ⟨"title", "Facets overview: " ++ c.left.name ++ " vs " ++ c.right.name⟩ :: middleElements ++
      [⟨"p", c.left.name ++ " (" ++ toString c.left.numRows ++ " rows) compared with " ++
        c.right.name ++ " (" ++ toString c.right.numRows ++ " rows)"⟩, ⟨"/p", "\n"⟩]

def endElements : List Element := [⟨"/body", "\n"⟩, ⟨"/html", "\n"⟩]

/-- The elements of the page. -/
def elements (c : Comparison) : List Element :=
  c.startElements ++ tableElements .numeric (c.shown .numeric) ++
    tableElements .categorical (c.shown .categorical) ++ endElements

/-! ## Pieces and elements -/

/-- Some pieces as they stand in the page. -/
def render (pieces : List Piece) : String := String.join (pieces.map Piece.render)

@[simp]
theorem render_nil : render [] = "" := String.join_nil

theorem render_append (ps qs : List Piece) : render (ps ++ qs) = render ps ++ render qs := by
  rw [render, List.map_append, String.join_append, render, render]

theorem render_cons (p : Piece) (ps : List Piece) : render (p :: ps) = p.render ++ render ps := by
  rw [render, List.map_cons, String.join_cons, render]

theorem render_flatMap {α : Type} (items : List α) (f : α → List Piece) :
    render (items.flatMap f) = String.join (items.map fun a => render (f a)) := by
  induction items with
  | nil => rfl
  | cons a rest ih =>
    rw [List.flatMap_cons, render_append, ih, List.map_cons, String.join_cons]

theorem escapeText_empty : Text.escapeText "" = "" :=
  (Text.unmarked_ofList (by decide)).escapeText_eq

theorem escapeText_newline : Text.escapeText "\n" = "\n" :=
  (Text.unmarked_ofList (by decide)).escapeText_eq

theorem render_textCell (s : String) : render (textCell s) = Page.write (Row.cell "td" s) := by
  simp [textCell, pageCell, Row.cell, render, Page.write, Piece.render, Element.render,
    escapeText_empty, String.append_assoc]

/-- A number is written as it is, for there is nothing to escape in it. -/
theorem render_numberCell {s : String} (h : Text.Unmarked s) :
    render (numberCell s) = Page.write (Row.cell "td" s) := by
  have hsame : (Piece.markup s).render = (Piece.text s).render := h.escapeText_eq.symm
  rw [← render_textCell, numberCell, textCell, pageCell, pageCell, render_cons, render_cons, hsame,
    ← render_cons, ← render_cons]

theorem render_missingCell (missing : Nat) (rate : Double) :
    render (missingCell missing rate) =
      Page.write (Row.cell (Row.shareTag (0 < missing)) (writePercentage rate ++ "%")) := by
  have hshare : Text.escapeText (writePercentage rate ++ "%") = writePercentage rate ++ "%" :=
    (unmarked_share rate).escapeText_eq
  by_cases h : 0 < missing <;>
    simp [missingCell, Row.cell, Row.shareTag, render, Page.write, Piece.render, Element.render,
      hshare, escapeText_empty, String.append_assoc, h]

theorem render_pageRow (cells : List (List Piece)) :
    render (pageRow cells) =
      Page.write [⟨"tr", ""⟩] ++ String.join (cells.map render) ++ Page.write [⟨"/tr", "\n"⟩] := by
  have hcells : render cells.flatten = String.join (cells.map render) := by
    rw [← List.flatMap_id', render_flatMap]
  simp [pageRow, render_append, render_cons, hcells, Page.write, Piece.render, Element.render,
    escapeText_empty, escapeText_newline, String.append_assoc]

/-- The row of a feature stands in the page as its elements. -/
theorem render_featureRow (type : ColumnType) (name : String) (side : DatasetStatistics) :
    render (featureRow type name side) =
      Page.write ((row? type name side).toList.flatMap Row.elements) := by
  cases hfeature : side.feature? name with
  | none => cases type <;> simp [featureRow, row?, hfeature, render]
  | some f =>
    have hname : f.name = name := by simpa using List.find?_some hfeature
    rw [row?_of_feature? hfeature]
    obtain ⟨_, stats⟩ := f
    obtain rfl := hname
    cases type <;> cases stats
    case numeric.categorical | categorical.numeric =>
      simp [featureRow, hfeature, FeatureStatistics.columnType, render]
    all_goals
      simp [-Nat.toString_eq_repr, featureRow, hfeature, numericRow, categoricalRow, render_pageRow,
        render_textCell, render_numberCell (unmarked_toString _),
        render_numberCell (unmarked_writeStatistic _), render_missingCell, Row.elements,
        FeatureKind.details, FeatureKind.missing, FeatureStatistics.count,
        FeatureStatistics.missingRate, FeatureStatistics.columnType, Page.write_cons,
        String.append_assoc]
      rfl

/-- The rows of some features stand in the page as their elements. -/
theorem render_flatMap_featureRow (c : Comparison) (type : ColumnType) (names : List String) :
    render (names.flatMap fun name => c.sides.flatMap (featureRow type name)) =
      Page.write ((names.flatMap fun name =>
        c.sides.flatMap fun side => (row? type name side).toList).flatMap Row.elements) := by
  simp only [render_flatMap, render_featureRow, List.flatMap_assoc, Page.write_flatMap]

/-- The table of a type stands in the page as its elements. -/
theorem render_typeTable (c : Comparison) (type : ColumnType) :
    render (c.typeTable type) = Page.write (tableElements type (c.shown type)) := by
  cases hnames : c.tableFeatures type with
  | nil =>
    rw [typeTable, hnames, shown_eq_nil_iff.2 hnames]
    rfl
  | cons name rest =>
    have hne : c.shown type ≠ [] := fun h => by
      rw [shown_eq_nil_iff.1 h] at hnames
      cases hnames
    have hheading : tableHeading type = Page.write (headingElements type) := by
      have hunmarked : ∀ e ∈ headingElements type, Text.Unmarked e.text := by
        cases type <;> decide +kernel
      rw [Page.write_eq_of_unmarked hunmarked]
      set_option maxRecDepth 20000 in
      cases type <;> rfl
    have hend : "</table>\n" = Page.write [⟨"/table", "\n"⟩] := by
      simp [Page.write, Element.render, escapeText_newline]
    rw [tableElements_of_ne_nil hne, typeTable, hnames, shown, hnames]
    simp only [List.cons_append, render_cons, render_append, Piece.render, Page.write_append,
      render_flatMap_featureRow, hheading, hend, render_nil, String.append_empty,
      String.append_assoc]

theorem unmarked_styleRules : Text.Unmarked styleRules :=
  ((Text.unmarked_ofList (by decide)).append (Text.unmarked_ofList (by decide))).append
    (Text.unmarked_ofList (by decide))

theorem write_headElements :
    Page.write headElements ++ "<title>Facets overview: " =
      "<!DOCTYPE html>\n<html>\n<head>\n<meta charset=\"utf-8\">\n<title>Facets overview: " := by
  have hunmarked : ∀ e ∈ headElements, Text.Unmarked e.text := by decide +kernel
  rw [Page.write_eq_of_unmarked hunmarked]
  rfl

theorem write_middleElements :
    Page.write middleElements ++ "<p>" =
      "</title>\n" ++ (pageStyle ++ "</head>\n<body>\n<h1>Facets overview</h1>\n<p>") := by
  have hunmarked : ∀ e ∈ middleElements, Text.Unmarked e.text := by
    simp only [middleElements, List.forall_mem_cons]
    refine ⟨?_, unmarked_styleRules, ?_, ?_, ?_, ?_, ?_, by simp⟩
    all_goals exact Text.unmarked_ofList (by decide)
  rw [Page.write_eq_of_unmarked hunmarked]
  set_option maxRecDepth 20000 in
  rfl

theorem render_title (left right : String) :
    (Element.mk "title" ("Facets overview: " ++ left ++ " vs " ++ right)).render =
      "<title>Facets overview: " ++
        (Text.escapeText left ++ (" vs " ++ Text.escapeText right)) := by
  have hbegin : Text.escapeText "Facets overview: " = "Facets overview: " :=
    (Text.unmarked_ofList (by decide)).escapeText_eq
  have hvs : Text.escapeText " vs " = " vs " := (Text.unmarked_ofList (by decide)).escapeText_eq
  have hsplit : "<title>Facets overview: " = "<" ++ "title" ++ ">" ++ "Facets overview: " := by rfl
  simp only [Element.render, Text.escapeText_append, hbegin, hvs, hsplit, String.append_assoc]

theorem render_paragraph (left right : String) {leftRows rightRows : String}
    (hleft : Text.Unmarked leftRows) (hright : Text.Unmarked rightRows) :
    (Element.mk "p" (left ++ " (" ++ leftRows ++ " rows) compared with " ++ right ++ " (" ++
        rightRows ++ " rows)")).render ++ (Element.mk "/p" "\n").render =
      "<p>" ++ (Text.escapeText left ++ (" (" ++ (leftRows ++ (" rows) compared with " ++
        (Text.escapeText right ++ (" (" ++ (rightRows ++ " rows)</p>\n"))))))) := by
  have hopen : Text.escapeText " (" = " (" := (Text.unmarked_ofList (by decide)).escapeText_eq
  have hwith : Text.escapeText " rows) compared with " = " rows) compared with " :=
    (Text.unmarked_ofList (by decide)).escapeText_eq
  have hclose : Text.escapeText " rows)" = " rows)" :=
    (Text.unmarked_ofList (by decide)).escapeText_eq
  simp [Element.render, Text.escapeText_append, hopen, hwith, hclose, hleft.escapeText_eq,
    hright.escapeText_eq, escapeText_newline, String.append_assoc]

theorem render_pageStart (c : Comparison) : render c.pageStart = Page.write c.startElements := by
  have hmiddle (s : String) : Page.write middleElements ++ ("<p>" ++ s) =
      "</title>\n" ++ (pageStyle ++ ("</head>\n<body>\n<h1>Facets overview</h1>\n<p>" ++ s)) := by
    rw [← String.append_assoc, write_middleElements, String.append_assoc, String.append_assoc]
  have hparagraph : Page.write [⟨"p", _⟩, ⟨"/p", "\n"⟩] = _ :=
    render_paragraph c.left.name c.right.name (unmarked_toString c.left.numRows)
      (unmarked_toString c.right.numRows)
  rw [startElements, Page.write_append, Page.write_append, Page.write_cons, render_title,
    hparagraph]
  simp only [pageStart, render_cons, render_nil, Piece.render, ← write_headElements,
    String.append_assoc, String.append_empty, hmiddle]

/-- The page is written from its elements. -/
theorem renderHtml_eq_write (c : Comparison) : c.renderHtml = Page.write c.elements := by
  have hend : render [.markup "</body>\n</html>\n"] = Page.write endElements := by
    simp [render, endElements, Page.write, Piece.render, Element.render, escapeText_newline]
  rw [renderHtml, ← render, pagePieces, render_append, render_append, render_append,
    render_pageStart, render_typeTable, render_typeTable, hend, elements, Page.write_append,
    Page.write_append, Page.write_append]

end Comparison

end Tableflow
