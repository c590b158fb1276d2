import Tableflow.Instant
import Tableflow.Pipeline

/-!
# Runs

The record of one execution of a pipeline: every step with how it went, in the order in which the
steps run. Steps that completed keep their outputs; the first failure ends a run, and the steps
after it were not run. The status of a run is told by its failure, so the two cannot disagree.
-/

namespace Tableflow

/-! ## Steps of a run -/

/-- How a step of a run went. -/
inductive StepResult
  | completed (started finished : Instant) (outputs : Outputs)
  | failed (started finished : Instant)
  | notRun

namespace StepResult

/-- The word for how a step went. -/
def word : StepResult → String
  | .completed .. => "completed"
  | .failed .. => "failed"
  | .notRun => "not_run"

def started? : StepResult → Option Instant
  | .completed started _ _ | .failed started _ => some started
  | .notRun => none

def finished? : StepResult → Option Instant
  | .completed _ finished _ | .failed _ finished => some finished
  | .notRun => none

/-- The outputs of a step, of which only a completed one has any. -/
def outputs : StepResult → Outputs
  | .completed _ _ outputs => outputs
  | .failed .. | .notRun => .empty

end StepResult

/-- A step of a run. -/
structure StepRun where
  name : String
  result : StepResult

namespace StepRun

def outputs (s : StepRun) : Outputs := s.result.outputs

/-- An output of a step. -/
def output (s : StepRun) (name : String) : Except Fault Artifact :=
  match s.outputs.find? name with
  | some a => .ok a
  | none => .error (.outputNotFound s.name name)

/-- The value of an expected kind in an output of a step. -/
def read (s : StepRun) (kind : Kind) (name : String) : Except Fault kind.Carrier := do
  (← s.output name).read kind s.name name

end StepRun

/-! ## Runs -/

/-- Why a run failed. -/
structure StepFailure where
  step : String
  message : String
  deriving DecidableEq

/-- How a run went. -/
inductive RunStatus
  | completed
  | failed
  deriving DecidableEq

/-- The word for how a run went. -/
def RunStatus.word : RunStatus → String
  | .completed => "completed"
  | .failed => "failed"

/-- The record of an execution. -/
structure Run where
  id : RunId
  pipeline : String
  started : Instant
  finished : Instant
  steps : List StepRun
  failure : Option StepFailure

namespace Run

def status (r : Run) : RunStatus := if r.failure.isSome then .failed else .completed

/-- The step of a name. -/
def getStep (r : Run) (name : String) : Except Fault StepRun :=
  match r.steps.find? fun s => s.name = name with
  | some s => .ok s
  | none => .error (.stepNotFound r.id name)

end Run

/-- What an execution hands back: its record, and the fault that ended it if a step failed. -/
structure Outcome where
  run : Run
  error : Option Fault

namespace Outcome

def isSuccess (o : Outcome) : Bool := o.error.isNone

/-- The run, or the fault that ended it. -/
def toExcept (o : Outcome) : Except Fault Run :=
  match o.error with
  | some fault => .error fault
  | none => .ok o.run

end Outcome

end Tableflow
