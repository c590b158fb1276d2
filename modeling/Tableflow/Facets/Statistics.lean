import Tableflow.Dictionary
import Tableflow.Table

/-!
# Summary statistics

What is told about a column: for numbers the count, the share of missing cells, moments and order
statistics; for texts how often each occurs. Numbers are sorted in the total order before anything
is added up, so the order of the rows never shows (`NumericStatistics.of_perm`).
-/

namespace Tableflow

/-- The share of missing cells; none are missing where there are no cells. -/
def missingRate (missing total : Nat) : Double :=
  if total = 0 then Double.zero else Double.ofNat missing / Double.ofNat total

/-! ## Numbers -/

/-- The moments and order statistics of a list of numbers. Variance and deviation are those of the
population. -/
structure Moments where
  mean : Double
  variance : Double
  stdDev : Double
  min : Double
  median : Double
  max : Double
  deriving DecidableEq

/-- The statistics of a numeric column. -/
structure NumericStatistics where
  count : Nat
  missing : Nat
  missingRate : Double
  mean : Option Double
  variance : Option Double
  stdDev : Option Double
  min : Option Double
  median : Option Double
  max : Option Double
  zeros : Nat
  deriving DecidableEq

/-- The middle of an ascending list, or the mean of the two in the middle; the list is given with
its first item. -/
def medianOf (first : Double) (rest : List Double) : Double :=
  let sorted := (first :: rest).toArray
  let half := sorted.size / 2
  if sorted.size % 2 = 1 then sorted[half]?.getD first
  else (sorted[half - 1]?.getD first + sorted[half]?.getD first) / Double.two

/-- The moments of an ascending list, given with its first item. -/
def Moments.ofSorted (first : Double) (rest : List Double) : Moments :=
  let sorted := first :: rest
  let count := Double.ofNat sorted.length
  let mean := Double.sum sorted / count
  let variance := Double.sum (sorted.map fun x => (x - mean) * (x - mean)) / count
  { mean
    variance
    stdDev := variance.sqrt
    min := first
    median := medianOf first rest
    max := rest.getLast?.getD first }

namespace NumericStatistics

/-- The numbers that are there, in the total order. -/
def present (values : List (Option Double)) : List Double :=
  (values.filterMap id).mergeSort Double.totalLE

/-- The statistics of some cells. -/
def of (values : List (Option Double)) : NumericStatistics :=
  let sorted := present values
  let missing := values.length - sorted.length
  let moments :=
    match sorted with
    | [] => none
    | first :: rest => some (Moments.ofSorted first rest)
  { count := sorted.length
    missing
    missingRate := Tableflow.missingRate missing values.length
    mean := moments.map (·.mean)
    variance := moments.map (·.variance)
    stdDev := moments.map (·.stdDev)
    min := moments.map (·.min)
    median := moments.map (·.median)
    max := moments.map (·.max)
    zeros := sorted.countP Double.isZero }

theorem present_pairwise (values : List (Option Double)) :
    (present values).Pairwise (Double.totalLE · ·) :=
  @List.pairwise_mergeSort _ Double.totalLE (fun _ _ _ h h' => Double.totalLE_trans h h')
    Double.totalLE_total _

theorem present_perm_filterMap (values : List (Option Double)) :
    (present values).Perm (values.filterMap id) :=
  List.mergeSort_perm ..

theorem present_perm {values values' : List (Option Double)} (h : values.Perm values') :
    present values = present values' := by
  have hperm : (present values).Perm (present values') :=
    ((present_perm_filterMap _).trans (h.filterMap id)).trans (present_perm_filterMap _).symm
  exact hperm.eq_of_pairwise (fun _ _ _ _ => Double.totalLE_antisymm) (present_pairwise _)
    (present_pairwise _)

theorem of_perm {values values' : List (Option Double)} (h : values.Perm values') :
    of values = of values' := by
  simp only [of, present_perm h, h.length_eq]

end NumericStatistics

/-! ## Texts -/

/-- The statistics of a categorical column. -/
structure CategoricalStatistics where
  count : Nat
  missing : Nat
  missingRate : Double
  unique : Nat
  /-- The most frequent text; of equally frequent ones the first in the order of texts. -/
  top : Option String
  topFrequency : Nat
  frequencies : Dictionary Nat
  avgLength : Option Double
  deriving DecidableEq

/-- The dictionary with one more occurrence of a text. -/
def Dictionary.tally (d : Dictionary Nat) (text : String) : Dictionary Nat :=
  d.insert text ((d.find? text).getD 0 + 1)

/-- The first entry with the greatest number, and that number. -/
def greatest (entries : List (String × Nat)) : Option String × Nat :=
  entries.foldl
    (fun best entry => if best.2 < entry.2 then (some entry.1, entry.2) else best) (none, 0)

namespace CategoricalStatistics

/-- The statistics of some cells. -/
def of (values : List (Option String)) : CategoricalStatistics :=
  let present := values.filterMap id
  let frequencies := present.foldl Dictionary.tally .empty
  let count := frequencies.entries.foldl (fun n entry => n + entry.2) 0
  let missing := values.length - count
  let (top, topFrequency) := greatest frequencies.entries
  let totalLength := present.foldl (fun n text => n + text.length) 0
  { count
    missing
    missingRate := Tableflow.missingRate missing values.length
    unique := frequencies.size
    top
    topFrequency
    frequencies
    avgLength := if 0 < count then some (Double.ofNat totalLength / Double.ofNat count) else none }

end CategoricalStatistics

/-! ## Columns and tables -/

/-- The statistics of a column of either type. -/
inductive FeatureKind
  | numeric (statistics : NumericStatistics)
  | categorical (statistics : CategoricalStatistics)
  deriving DecidableEq

/-- The named statistics of a column. -/
structure FeatureStatistics where
  name : String
  stats : FeatureKind
  deriving DecidableEq

namespace FeatureStatistics

def of (column : Column) : FeatureStatistics where
  name := column.name
  stats :=
    match column.cells with
    | .numeric values => .numeric (.of values)
    | .categorical values => .categorical (.of values)

def columnType (f : FeatureStatistics) : ColumnType :=
  match f.stats with
  | .numeric _ => .numeric
  | .categorical _ => .categorical

def count (f : FeatureStatistics) : Nat :=
  match f.stats with
  | .numeric s => s.count
  | .categorical s => s.count

def missingRate (f : FeatureStatistics) : Double :=
  match f.stats with
  | .numeric s => s.missingRate
  | .categorical s => s.missingRate

def numeric? (f : FeatureStatistics) : Option NumericStatistics :=
  match f.stats with
  | .numeric s => some s
  | .categorical _ => none

def categorical? (f : FeatureStatistics) : Option CategoricalStatistics :=
  match f.stats with
  | .numeric _ => none
  | .categorical s => some s

end FeatureStatistics

/-- The statistics of every column of a named table, in the order of the columns. -/
structure DatasetStatistics where
  name : String
  numRows : Nat
  features : List FeatureStatistics
  deriving DecidableEq

namespace DatasetStatistics

def of (name : String) (table : Table) : DatasetStatistics :=
  ⟨name, table.numRows, table.columns.map .of⟩

/-- The statistics of the column of a name. -/
def feature? (d : DatasetStatistics) (name : String) : Option FeatureStatistics :=
  d.features.find? fun f => f.name = name

end DatasetStatistics

end Tableflow
