import Tableflow.Pipeline.Execution
import Tableflow.Pipeline.Summary

/-!
# The registry

Pipelines under their names and the history of their runs, in the order in which the runs were
made. A registry may be limited to a number of runs for each pipeline; a run beyond the limit
drives out the oldest one of the same pipeline. Runs are handed out most recent first.
-/

namespace Tableflow

variable {m : Type → Type}

/-- Pipelines and the history of their runs. -/
structure Registry (m : Type → Type) where
  pipelines : Dictionary (Pipeline m)
  /-- The runs, the oldest first. -/
  history : List Run
  /-- How many runs are kept for each pipeline. -/
  retention : Option Nat

/-- A history without the first `surplus` runs of a pipeline. -/
def dropOldest (pipeline : String) : Nat → List Run → List Run
  | 0, history => history
  | _ + 1, [] => []
  | surplus + 1, run :: rest =>
    if run.pipeline = pipeline then dropOldest pipeline surplus rest
    else run :: dropOldest pipeline (surplus + 1) rest

/-- How many runs of a pipeline a history holds beyond a limit. -/
def surplus (pipeline : String) (limit : Nat) (history : List Run) : Nat :=
  history.countP (fun run => run.pipeline = pipeline) - limit

/-- A history with at most `limit` runs of a pipeline, and the number of the runs that were driven
out. -/
def evictOldest (pipeline : String) (limit : Nat) (history : List Run) : List Run × Nat :=
  let excess := surplus pipeline limit history
  (dropOldest pipeline excess history, excess)

namespace Registry

/-- A registry without pipelines that keeps all runs. -/
def empty : Registry m := ⟨.empty, [], none⟩

/-- A registry without pipelines that keeps at most `limit` runs for each pipeline, and the latest
one in any case. -/
def withRetention (limit : Nat) : Registry m := { empty with retention := some (max limit 1) }

/-! ## Pipelines -/

/-- Puts a pipeline under its name, in place of the one there. -/
def register (r : Registry m) (p : Pipeline m) : Registry m :=
  { r with pipelines := r.pipelines.insert p.name p }

/-- The pipeline of a name. -/
def pipeline (r : Registry m) (name : String) : Except Fault (Pipeline m) :=
  match r.pipelines.find? name with
  | some p => .ok p
  | none => .error (.pipelineNotFound name)

/-- The names of the pipelines in order. -/
def pipelineNames (r : Registry m) : List String := r.pipelines.keys

/-! ## Runs -/

/-- Puts a run at the end of the history and drives out those under a name beyond the limit. -/
def record (r : Registry m) (name : String) (run : Run) : Registry m :=
  let history := r.history ++ [run]
  match r.retention with
  | none => { r with history }
  | some limit => { r with history := (evictOldest name limit history).1 }

/-- Runs the pipeline of a name and records the run under the name, also if it failed. -/
def run [Monad m] (r : Registry m) (name : String) (id : RunId) (now : m Instant) :
    m (Except Fault Run × Registry m) :=
  match r.pipeline name with
  | .error fault => return (.error fault, r)
  | .ok p => do
    let outcome ← p.execute id now
    return (outcome.toExcept, r.record name outcome.run)

/-- All runs, the most recent first. -/
def allRuns (r : Registry m) : List Run := r.history.reverse

/-- The runs of a pipeline, the most recent first. -/
def runs (r : Registry m) (name : String) : List Run :=
  r.allRuns.filter fun run => run.pipeline = name

/-- The most recent run of a pipeline. -/
def latestRun (r : Registry m) (name : String) : Except Fault Run :=
  match r.allRuns.find? fun run => run.pipeline = name with
  | some run => .ok run
  | none => .error (.runNotFound (.latest name))

/-- The run with an identifier. -/
def runById (r : Registry m) (id : RunId) : Except Fault Run :=
  match r.history.find? fun run => run.id = id with
  | some run => .ok run
  | none => .error (.runNotFound (.id id))

/-- The registry without the runs of a pipeline, and the number of the runs removed. -/
def clearRuns (r : Registry m) (name : String) : Registry m × Nat :=
  let history := r.history.filter fun run => run.pipeline ≠ name
  ({ r with history }, r.history.length - history.length)

/-- The summaries of the runs of a pipeline as JSON text, the most recent first. -/
def exportSummaries (r : Registry m) (name : String) : String :=
  (Json.Value.array ((r.runs name).map Run.summary)).pretty

end Registry

end Tableflow
