import Tableflow.Facets.Comparison
import Tableflow.Text.Pad

/-!
# The overview as text

Two lines of headings, and for every feature one line for each side: the feature's and the side's
names, the count, or a dash where the side lacks the feature, and the statistics of its type.
-/

namespace Tableflow.Comparison

open Text (alignLeft alignRight)

/-- The columns that every line begins with. -/
def lineStart (feature dataset count : String) : String :=
  alignLeft 24 feature ++ " " ++ alignLeft 10 dataset ++ " " ++ alignRight 6 count

/-- The columns of numeric statistics, from the mean on. -/
def numericColumns (mean stdDev min median max : String) : String :=
  " " ++ alignRight 9 mean ++ " " ++ alignRight 9 stdDev ++ " " ++ alignRight 8 min ++
    " " ++ alignRight 8 median ++ " " ++ alignRight 8 max

/-- The share of missing cells, as a column. -/
def missingColumn (rate : Double) : String := " " ++ alignRight 7 (writePercentage rate) ++ "%"

/-- The rest of a line for a feature. -/
def statisticsColumns : FeatureKind → String
  | .numeric s =>
    missingColumn s.missingRate ++
      numericColumns (writeStatistic s.mean) (writeStatistic s.stdDev) (writeStatistic s.min)
        (writeStatistic s.median) (writeStatistic s.max)
  | .categorical s =>
    let top := s.top.getD "-"
    missingColumn s.missingRate ++ s!"  unique={s.unique} top={top} ({s.topFrequency})"

/-- The line of a feature on one side. -/
def featureLine (name : String) (side : DatasetStatistics) : String :=
  match side.feature? name with
  | none => lineStart name side.name "-"
  | some feature =>
    lineStart name side.name (toString feature.count) ++ statisticsColumns feature.stats

/-- The line that names the two tables. -/
def titleLine (c : Comparison) : String :=
  let described := c.sides.map fun side => s!"{side.name} ({side.numRows} rows)"
  "Facets overview: " ++ " vs ".intercalate described

/-- The line of column headings. -/
def headingLine : String :=
  lineStart "feature" "dataset" "count" ++ " " ++ alignRight 8 "missing" ++
    numericColumns "mean" "std_dev" "min" "median" "max"

/-- The lines of the overview. -/
def textLines (c : Comparison) : List String :=
  c.titleLine :: headingLine ::
    c.featureNames.flatMap fun name => c.sides.map (featureLine name)

/-- The overview as text. -/
def renderText (c : Comparison) : String := String.join (c.textLines.map (· ++ "\n"))

end Tableflow.Comparison
