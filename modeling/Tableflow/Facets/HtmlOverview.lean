import Tableflow.Facets.Comparison
import Tableflow.Text.Markup

/-!
# The overview as a page

A page with a table of the numeric features and one of the categorical features. It is built of
pieces, markup and numbers of the page's own and text from outside, of which only the text is
escaped, so no text can pass for markup. A feature goes to the table of the type that it has on the first side that has
it, and there has a row for each side on which it is of that type.
-/

namespace Tableflow

/-- A piece of a page: markup, which stands as it is, or text that is to be escaped. -/
inductive Piece
  | markup (s : String)
  | text (s : String)
  deriving DecidableEq

/-- The piece as it stands in the page. -/
def Piece.render : Piece → String
  | .markup s => s
  | .text s => Text.escapeText s

namespace Comparison

/-- A cell of a table. -/
def pageCell (content : Piece) : List Piece := [.markup "<td>", content, .markup "</td>"]

/-- A cell that holds a text from outside. -/
def textCell (content : String) : List Piece := pageCell (.text content)

/-- A cell that holds a number as it is written. -/
def numberCell (content : String) : List Piece := pageCell (.markup content)

/-- The cell for the share of missing cells, which stands out if any are missing. -/
def missingCell (missing : Nat) (rate : Double) : List Piece :=
  [.markup (if 0 < missing then "<td class=\"missing\">" else "<td>"),
    .markup (writePercentage rate ++ "%"), .markup "</td>"]

/-- A row of a table. -/
def pageRow (cells : List (List Piece)) : List Piece :=
  .markup "<tr>" :: cells.flatten ++ [.markup "</tr>\n"]

/-- The row of a numeric feature on one side. -/
def numericRow (name dataset : String) (s : NumericStatistics) : List Piece :=
  pageRow
    [textCell name, textCell dataset, numberCell (toString s.count),
      missingCell s.missing s.missingRate, numberCell (writeStatistic s.mean),
      numberCell (writeStatistic s.stdDev), numberCell (toString s.zeros),
      numberCell (writeStatistic s.min), numberCell (writeStatistic s.median),
      numberCell (writeStatistic s.max)]

/-- The row of a categorical feature on one side. -/
def categoricalRow (name dataset : String) (s : CategoricalStatistics) : List Piece :=
  pageRow
    [textCell name, textCell dataset, numberCell (toString s.count),
      missingCell s.missing s.missingRate, numberCell (toString s.unique),
      textCell (s.top.getD "-"), numberCell (toString s.topFrequency),
      numberCell (writeStatistic s.avgLength)]

/-- The row of a feature on one side in the table of a type, if it is of that type there. -/
def featureRow (type : ColumnType) (name : String) (side : DatasetStatistics) : List Piece :=
  match type, (side.feature? name).map FeatureStatistics.stats with
  | .numeric, some (.numeric s) => numericRow name side.name s
  | .categorical, some (.categorical s) => categoricalRow name side.name s
  | _, _ => []

/-- The heading of the table of a type. -/
def tableHeading : ColumnType → String
  | .numeric =>
    "<h2>Numeric features</h2>\n<table>\n<tr><th>feature</th><th>dataset</th><th>count</th>" ++
      "<th>missing</th><th>mean</th><th>std dev</th><th>zeros</th><th>min</th><th>median</th>" ++
      "<th>max</th></tr>\n"
  | .categorical =>
    "<h2>Categorical features</h2>\n<table>\n<tr><th>feature</th><th>dataset</th><th>count</th>" ++
      "<th>missing</th><th>unique</th><th>top</th><th>freq top</th><th>avg str len</th></tr>\n"

/-- The features of the table of a type. -/
def tableFeatures (c : Comparison) (type : ColumnType) : List String :=
  c.featureNames.filter fun name => c.leadingType? name = some type

/-- The table of a type, left out if it has no features. -/
def typeTable (c : Comparison) (type : ColumnType) : List Piece :=
  match c.tableFeatures type with
  | [] => []
  | names =>
    .markup (tableHeading type) ::
      (names.flatMap fun name => c.sides.flatMap (featureRow type name)) ++ [.markup "</table>\n"]

/-- The rules for the looks of the page. -/
def pageStyle : String :=
  "<style>body\x7bfont-family:sans-serif\x7dtable\x7bborder-collapse:collapse;" ++
    "margin-bottom:2em\x7dth,td\x7bborder:1px solid #ccc;padding:4px 8px;text-align:right\x7d" ++
    "th:first-child,td:first-child\x7btext-align:left\x7d.missing\x7bcolor:#c00\x7d</style>\n"

/-- The page's head and the paragraph that names the two tables. -/
def pageStart (c : Comparison) : List Piece :=
  [.markup "<!DOCTYPE html>\n<html>\n<head>\n<meta charset=\"utf-8\">\n<title>Facets overview: ",
    .text c.left.name, .markup " vs ", .text c.right.name, .markup "</title>\n",
    .markup pageStyle, .markup "</head>\n<body>\n<h1>Facets overview</h1>\n<p>",
    .text c.left.name, .markup " (", .markup (toString c.left.numRows),
    .markup " rows) compared with ", .text c.right.name, .markup " (",
    .markup (toString c.right.numRows), .markup " rows)</p>\n"]

/-- The pieces of the page. -/
def pagePieces (c : Comparison) : List Piece :=
  c.pageStart ++ c.typeTable .numeric ++ c.typeTable .categorical ++
    [.markup "</body>\n</html>\n"]

/-- The overview as a page. -/
def renderHtml (c : Comparison) : String := String.join (c.pagePieces.map Piece.render)

end Comparison

end Tableflow
