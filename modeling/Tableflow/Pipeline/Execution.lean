import Tableflow.Pipeline.Run

/-!
# Executing pipelines

The steps run one after another in the order of the pipeline. A step whose turn comes gets its
constants and the artifacts recorded for the steps before it, and its outputs are recorded if they
are exactly the declared ones. The first failure, of the inputs, the body or the outputs, ends the
run: the steps after it are recorded without having run. `Transcript.advance` takes one step, and
all that it does beside calling the body and reading the time is in `Transcript.record`.
-/

namespace Tableflow

variable {m : Type → Type}

/-! ## Transcripts -/

/-- A step that failed, and what its body failed with. -/
structure Breakdown where
  step : String
  trace : Trace
  deriving DecidableEq

/-- The steps of a run so far, and the failure that ended it if there was one. -/
structure Transcript where
  steps : List StepRun
  /-- Where the completed steps stand, by their names. -/
  positions : Dictionary Nat
  breakdown : Option Breakdown

namespace Transcript

def empty : Transcript := ⟨[], .empty, none⟩

/-- The completed step of a name. -/
def completed? (t : Transcript) (name : String) : Option StepRun :=
  (t.positions.find? name).bind fun i => t.steps[i]?

end Transcript

/-! ## Inputs and outputs -/

namespace BoundStep

/-- The artifact that a source stands for. -/
def resolve (s : BoundStep m) (t : Transcript) : Source → Except Fault Artifact
  | .constant value => .ok value
  | .output step output =>
    match t.completed? step with
    | some run => run.output output
    | none => .error (.internal s!"step '{s.name}' scheduled before its upstream '{step}'")

/-- The artifacts for the inputs of a step. -/
def gatherInputs (s : BoundStep m) (t : Transcript) : Except Fault Inputs := do
  return ⟨s.name, ← s.bindings.mapM (s.resolve t)⟩

/-- The outputs of a step, if they are exactly the declared ones; the first undeclared one in order
is reported before the first declared one that is missing. -/
def checkOutputs (s : BoundStep m) (outputs : Outputs) : Except Fault Outputs :=
  match outputs.keys.find? fun name => !s.signature.hasOutput name with
  | some name => .error (.undeclaredOutput s.name name)
  | none =>
    match s.signature.outputs.find? fun name => !outputs.contains name with
    | some name => .error (.missingOutput s.name name)
    | none => .ok outputs

/-- What a step amounts to whose body returned with outputs or failed. -/
def conclude (s : BoundStep m) : Except Trace Outputs → Except Trace Outputs
  | .ok outputs => (s.checkOutputs outputs).mapError .fault
  | .error trace => .error trace

/-- Calls the body of a step with its inputs. -/
def perform [Monad m] (s : BoundStep m) (t : Transcript) : m (Except Trace Outputs) :=
  match s.gatherInputs t with
  | .ok inputs => return s.conclude (← s.step.body inputs)
  | .error fault => return .error (.fault fault)

end BoundStep

/-! ## Taking the steps -/

namespace Transcript

/-- Records a step that ran. -/
def record (t : Transcript) (name : String) (started finished : Instant) :
    Except Trace Outputs → Transcript
  | .ok outputs =>
    { t with
      steps := t.steps ++ [⟨name, .completed started finished outputs⟩]
      positions := t.positions.insert name t.steps.length }
  | .error trace =>
    { t with
      steps := t.steps ++ [⟨name, .failed started finished⟩]
      breakdown := some ⟨name, trace⟩ }

/-- Records a step that is not run. -/
def skip (t : Transcript) (name : String) : Transcript :=
  { t with steps := t.steps ++ [⟨name, .notRun⟩] }

/-- Takes the next step, unless the run has failed. -/
def advance [Monad m] (now : m Instant) (t : Transcript) (s : BoundStep m) : m Transcript :=
  match t.breakdown with
  | some _ => return t.skip s.name
  | none => do
    let started ← now
    let result ← s.perform t
    let finished ← now
    return t.record s.name started finished result

/-- What an execution with this transcript hands back. -/
def outcome (t : Transcript) (id : RunId) (pipeline : String) (started finished : Instant) :
    Outcome where
  run :=
    { id, pipeline, started, finished
      steps := t.steps
      failure := t.breakdown.map fun b => ⟨b.step, b.trace.alternate⟩ }
  error := t.breakdown.map fun b => .stepFailed id b.step b.trace

end Transcript

namespace Pipeline

/-- Executes a pipeline; the record has the given identifier. -/
def execute [Monad m] (p : Pipeline m) (id : RunId) (now : m Instant) : m Outcome := do
  let started ← now
  let transcript ← p.steps.foldlM (Transcript.advance now) .empty
  let finished ← now
  return transcript.outcome id p.name started finished

/-- Executes a pipeline for its run, or the fault that ended it. -/
def run [Monad m] (p : Pipeline m) (id : RunId) (now : m Instant) : m (Except Fault Run) :=
  return (← p.execute id now).toExcept

end Pipeline

end Tableflow
