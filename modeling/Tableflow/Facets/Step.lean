import Tableflow.Step

/-!
# The step that compares

A step that takes two tables and outputs the comparison of their statistics.
-/

namespace Tableflow

namespace FacetsStep

def left : String := "left"

def right : String := "right"

def statistics : String := "statistics"

/-- The label of training rows. -/
def trainLabel : String := "train"

/-- The label of test rows. -/
def testLabel : String := "test"

/-- The outputs for two tables. -/
def outputs (leftLabel rightLabel : String) (inputs : Inputs) : Except Fault Outputs := do
  let leftTable ← inputs.get .table left
  let rightTable ← inputs.get .table right
  let comparison := Comparison.of leftLabel leftTable rightLabel rightTable
  let artifact := (Artifact.of .comparison comparison).withMetadata "features"
    (.natural comparison.featureNames.length)
  return .ofList [(statistics, artifact)]

end FacetsStep

/-- The step that compares two tables, which stand under two labels in the comparison. -/
def facetsStep {m : Type → Type} [Monad m] (leftLabel rightLabel : String) : Step m :=
  .ofFallible ⟨[FacetsStep.left, FacetsStep.right], [FacetsStep.statistics]⟩
    fun inputs => return FacetsStep.outputs leftLabel rightLabel inputs

end Tableflow
