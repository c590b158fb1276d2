import Tableflow.Facets.Step
import Tableflow.Pipeline.Blueprint
import Tableflow.Provider

/-!
# The pipeline of data statistics

A provider's split is imported, and its training features are compared with its test features.
-/

namespace Tableflow.DataStatistics

variable {m : Type → Type} [Monad m]

/-- The name of the step that loads. -/
def importer : String := "importer"

/-- The name of the step that compares. -/
def visualizer : String := "facets_visualizer"

/-- The declaration of the pipeline. -/
def blueprint (name : String) (p : Provider m) : Blueprint m where
  name
  steps :=
    [⟨importer, importStep p⟩,
      ⟨visualizer, facetsStep FacetsStep.trainLabel FacetsStep.testLabel⟩]
  edges :=
    [⟨importer, ImportStep.xTrain, visualizer, FacetsStep.left⟩,
      ⟨importer, ImportStep.xTest, visualizer, FacetsStep.right⟩]
  constants := []

/-- The pipeline. -/
def pipeline (name : String) (p : Provider m) : Except Fault (Pipeline m) :=
  (blueprint name p).build

end Tableflow.DataStatistics
