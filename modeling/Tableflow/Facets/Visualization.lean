import Tableflow.Facets.HtmlOverview
import Tableflow.Facets.Step
import Tableflow.Facets.TextOverview
import Tableflow.Files.Path
import Tableflow.Files.System
import Tableflow.Pipeline.Run

/-!
# Visualizations

What a finished comparison looks like, as a page and as text, and how pages are written to files.
Directories are made as needed; a fault names the directory or the file that could not be made.
-/

namespace Tableflow

variable {m : Type → Type} [Monad m] [FileSystem m]

/-! ## Files -/

/-- Makes a directory and the ones above it. -/
def createDirectories (path : String) : m (Except Fault Unit) :=
  return (← FileSystem.createDirectories path).mapError (.writeFailed path)

/-- Writes a text to a file. -/
def writeFile (path content : String) : m (Except Fault Unit) :=
  return (← FileSystem.writeText path content).mapError (.writeFailed path)

namespace Comparison

/-- The name of the file that holds the page of a comparison. -/
def pageName : String := "facets_overview.html"

/-- Writes the page of a comparison into a directory; the result is the path of the file. -/
def saveHtml (c : Comparison) (directory : String) : m (Except Fault String) := do
  match ← createDirectories directory with
  | .error fault => return .error fault
  | .ok () =>
    let path := Path.join directory pageName
    return (← writeFile path c.renderHtml).map fun _ => path

end Comparison

/-! ## Visualizations -/

/-- A result as a page and as text. -/
structure Visualization where
  title : String
  html : String
  text : String
  deriving DecidableEq

namespace Visualization

/-- The visualization of a comparison that a step made. -/
def ofComparison (step : String) (c : Comparison) : Visualization where
  title := s!"{step}: {c.left.name} vs {c.right.name}"
  html := c.renderHtml
  text := c.renderText

/-- The visualization of the comparison that a step of a run made. -/
def ofStepRun (s : StepRun) : Except Fault Visualization :=
  (s.read .comparison FacetsStep.statistics).map (ofComparison s.name)

/-- Writes the page to a file. -/
def save (v : Visualization) (path : String) : m (Except Fault Unit) := do
  match (Path.parent? path).getD "" with
  | "" => writeFile path v.html
  | parent =>
    match ← createDirectories parent with
    | .error fault => return .error fault
    | .ok () => writeFile path v.html

end Visualization

end Tableflow
