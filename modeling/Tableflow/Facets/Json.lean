import Tableflow.Facets.Comparison
import Tableflow.Json.Decode

/-!
# Comparisons as JSON

A feature's statistics are an object of their members with the member `kind` for the type in front.
Statistics that are absent, or no finite numbers, are written as null and read as absent.
-/

namespace Tableflow

open Json (Value Tree Reals)

/-! ## Writing -/

namespace NumericStatistics

/-- The members of the statistics. -/
def toMembers (s : NumericStatistics) : List (String × Value) :=
  [("count", .natural s.count), ("missing", .natural s.missing),
    ("missing_rate", .real s.missingRate), ("mean", .optional .real s.mean),
    ("variance", .optional .real s.variance), ("std_dev", .optional .real s.stdDev),
    ("min", .optional .real s.min), ("median", .optional .real s.median),
    ("max", .optional .real s.max), ("zeros", .natural s.zeros)]

end NumericStatistics

namespace CategoricalStatistics

/-- The members of the statistics. -/
def toMembers (s : CategoricalStatistics) : List (String × Value) :=
  [("count", .natural s.count), ("missing", .natural s.missing),
    ("missing_rate", .real s.missingRate), ("unique", .natural s.unique),
    ("top", .optional .string s.top), ("top_frequency", .natural s.topFrequency),
    ("frequencies", .object (s.frequencies.map Value.natural).entries),
    ("avg_length", .optional .real s.avgLength)]

end CategoricalStatistics

namespace FeatureKind

def toJson : FeatureKind → Value
  | .numeric s => .object (("kind", .string "numeric") :: s.toMembers)
  | .categorical s => .object (("kind", .string "categorical") :: s.toMembers)

end FeatureKind

namespace FeatureStatistics

def toJson (f : FeatureStatistics) : Value :=
  .object [("name", .string f.name), ("stats", f.stats.toJson)]

end FeatureStatistics

namespace DatasetStatistics

def toJson (d : DatasetStatistics) : Value :=
  .object
    [("name", .string d.name), ("num_rows", .natural d.numRows),
      ("features", .array (d.features.map FeatureStatistics.toJson))]

end DatasetStatistics

namespace Comparison

def toJson (c : Comparison) : Value :=
  .object [("left", c.left.toJson), ("right", c.right.toJson)]

end Comparison

/-! ## Reading -/

namespace NumericStatistics

def ofTree (reals : Reals) (tree : Tree) : Option NumericStatistics := do
  let record := Tree.Record.of
    ["count", "missing", "missing_rate", "mean", "variance", "std_dev", "min", "median", "max",
      "zeros"] false tree
  return {
    count := ← record.required 0 Tree.asNatural
    missing := ← record.required 1 Tree.asNatural
    missingRate := ← record.required 2 (Tree.asReal reals)
    mean := ← record.optional 3 (Tree.asReal reals)
    variance := ← record.optional 4 (Tree.asReal reals)
    stdDev := ← record.optional 5 (Tree.asReal reals)
    min := ← record.optional 6 (Tree.asReal reals)
    median := ← record.optional 7 (Tree.asReal reals)
    max := ← record.optional 8 (Tree.asReal reals)
    zeros := ← record.required 9 Tree.asNatural }

end NumericStatistics

namespace CategoricalStatistics

def ofTree (reals : Reals) (tree : Tree) : Option CategoricalStatistics := do
  let record := Tree.Record.of
    ["count", "missing", "missing_rate", "unique", "top", "top_frequency", "frequencies",
      "avg_length"] false tree
  return {
    count := ← record.required 0 Tree.asNatural
    missing := ← record.required 1 Tree.asNatural
    missingRate := ← record.required 2 (Tree.asReal reals)
    unique := ← record.required 3 Tree.asNatural
    top := ← record.optional 4 Tree.asText
    topFrequency := ← record.required 5 Tree.asNatural
    frequencies := ← record.required 6 (Tree.asDictionary Tree.asNatural)
    avgLength := ← record.optional 7 (Tree.asReal reals) }

end CategoricalStatistics

namespace FeatureKind

/-- How many containers may nest inside a feature's statistics. -/
def depthLimit : Nat := 122

def ofTree (reals : Reals) (tree : Tree) : Option FeatureKind := do
  let (kind, members) ← Tree.splitTag reals depthLimit "kind" tree
  if kind = "numeric" then (NumericStatistics.ofTree reals members).map .numeric
  else if kind = "categorical" then (CategoricalStatistics.ofTree reals members).map .categorical
  else none

end FeatureKind

namespace FeatureStatistics

def ofTree (reals : Reals) (tree : Tree) : Option FeatureStatistics := do
  let record := Tree.Record.of ["name", "stats"] false tree
  return {
    name := ← record.required 0 Tree.asText
    stats := ← record.required 1 (FeatureKind.ofTree reals) }

end FeatureStatistics

namespace DatasetStatistics

def ofTree (reals : Reals) (tree : Tree) : Option DatasetStatistics := do
  let record := Tree.Record.of ["name", "num_rows", "features"] false tree
  return {
    name := ← record.required 0 Tree.asText
    numRows := ← record.required 1 Tree.asNatural
    features := ← record.required 2 (Tree.asList (FeatureStatistics.ofTree reals)) }

end DatasetStatistics

namespace Comparison

def ofTree (reals : Reals) (tree : Tree) : Option Comparison := do
  let record := Tree.Record.of ["left", "right"] false tree
  return {
    left := ← record.required 0 (DatasetStatistics.ofTree reals)
    right := ← record.required 1 (DatasetStatistics.ofTree reals) }

end Comparison

end Tableflow
