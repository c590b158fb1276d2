import Tableflow.Facets.Statistics

/-!
# Comparing two tables

The statistics of two named tables side by side, and the features that the two have between them.
-/

namespace Tableflow

/-- The statistics of two tables. -/
structure Comparison where
  left : DatasetStatistics
  right : DatasetStatistics
  deriving DecidableEq

namespace Comparison

/-- The comparison of two named tables. -/
def of (leftName : String) (left : Table) (rightName : String) (right : Table) : Comparison :=
  ⟨.of leftName left, .of rightName right⟩

def sides (c : Comparison) : List DatasetStatistics := [c.left, c.right]

/-- Adds a name at the end of a list unless it is there. -/
def addName (names : List String) (name : String) : List String :=
  if name ∈ names then names else names ++ [name]

/-- The names of the features: the left table's in their order, then the ones that only the right
table has. -/
def featureNames (c : Comparison) : List String :=
  (c.right.features.map (·.name)).foldl addName (c.left.features.map (·.name))

/-- The type that a feature has on the first side that has it. -/
def leadingType? (c : Comparison) (name : String) : Option ColumnType :=
  (c.sides.findSome? (·.feature? name)).map (·.columnType)

end Comparison

/-- A statistic with three places, or a dash where there is none. -/
def writeStatistic : Option Double → String
  | some x => Decimal.writeFixed 3 x
  | none => "-"

/-- A share in per cent, with one place and without the sign. -/
def writePercentage (rate : Double) : String := Decimal.writeFixed 1 (rate * Double.hundred)

end Tableflow
