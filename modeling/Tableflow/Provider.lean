import Tableflow.Files.System
import Tableflow.Step
import Tableflow.Table.Iris
import Tableflow.Table.Split

/-!
# Providers of tables

A provider loads a table with labels from somewhere and hands it out split into training and test
rows. `importStep` makes a provider the first step of a pipeline.
-/

namespace Tableflow

variable {m : Type → Type} [Monad m]

/-- A source of a table that is already split. -/
structure Provider (m : Type → Type) where
  name : String
  load : m (Except Fault Split)

namespace Provider

/-- Splits a table off its labels' rows, or reports why there is none. -/
def splitLoaded (config : SplitConfig) (loaded : Except TableDefect (Table × Series)) :
    Except Fault Split := do
  let (features, labels) ← loaded.mapError .invalidDataset
  (Split.of features labels config).mapError .invalidSplit

/-- The iris flowers. -/
def iris (config : SplitConfig) : Provider m := ⟨"iris", return splitLoaded config Iris.load⟩

/-- A file of delimited text with a column for the labels. -/
def csv [FileSystem m] (path label : String) (delimiter : Char) (config : SplitConfig) :
    Provider m where
  name := "csv"
  load := do
    match ← FileSystem.readText path with
    | .ok content => return splitLoaded config (Csv.parseLabeled content delimiter label)
    | .error fault => return .error (.datasetUnavailable path fault)

end Provider

/-! ## The step that loads -/

namespace ImportStep

def xTrain : String := "X_train"

def xTest : String := "X_test"

def yTrain : String := "y_train"

def yTest : String := "y_test"

/-- The notes about rows and columns. -/
def describe (a : Artifact) (rows : Nat) (columns : List String) : Artifact :=
  (a.withMetadata "rows" (.natural rows)).withMetadata "columns" (.array (columns.map .string))

/-- A table with notes about it. -/
def ofTable (t : Table) : Artifact := describe (.of .table t) t.numRows t.names

/-- A series with notes about it. -/
def ofSeries (s : Series) : Artifact := describe (.of .series s) s.length [s.name]

/-- The outputs for a split. -/
def outputs (s : Split) : Outputs :=
  .ofList [(xTrain, ofTable s.xTrain), (xTest, ofTable s.xTest), (yTrain, ofSeries s.yTrain),
    (yTest, ofSeries s.yTest)]

end ImportStep

/-- The step without inputs that outputs the parts of a provider's split. -/
def importStep (p : Provider m) : Step m :=
  .ofFallible ⟨[], [ImportStep.xTrain, ImportStep.xTest, ImportStep.yTrain, ImportStep.yTest]⟩
    fun _ => return (← p.load).map ImportStep.outputs

end Tableflow
