import Tableflow.Artifact

/-!
# Steps

A step declares the names of its inputs and outputs and has a body, which turns the artifacts bound
to the inputs into artifacts for the outputs, or fails. The body works in a monad, so that a step
may read files; whatever else it depends on, the artifacts that it sees are the ones in its inputs.
-/

namespace Tableflow

/-- The declared names of the inputs and outputs of a step. -/
structure Signature where
  inputs : List String
  outputs : List String
  deriving DecidableEq

namespace Signature

def hasInput (s : Signature) (name : String) : Bool := name ∈ s.inputs

def hasOutput (s : Signature) (name : String) : Bool := name ∈ s.outputs

end Signature

/-- The artifacts bound to the inputs of a step. -/
structure Inputs where
  /-- The name of the step. -/
  step : String
  values : Dictionary Artifact

namespace Inputs

/-- The artifact bound to an input. -/
def artifact (inputs : Inputs) (input : String) : Except Fault Artifact :=
  match inputs.values.find? input with
  | some a => .ok a
  | none => .error (.inputNotFound inputs.step input)

/-- The value of an expected kind bound to an input. -/
def get (inputs : Inputs) (kind : Kind) (input : String) : Except Fault kind.Carrier := do
  (← inputs.artifact input).read kind inputs.step input

end Inputs

/-- The artifacts that a step makes, by the names of its outputs. -/
abbrev Outputs := Dictionary Artifact

/-- A step whose body works in the monad `m`. -/
structure Step (m : Type → Type) where
  signature : Signature
  body : Inputs → m (Except Trace Outputs)

namespace Step

/-- The step of a body that fails with faults of the library only. -/
def ofFallible {m : Type → Type} [Monad m] (signature : Signature)
    (body : Inputs → m (Except Fault Outputs)) : Step m :=
  ⟨signature, fun inputs => return (← body inputs).mapError .fault⟩

/-- A step for inspection, which shows its signature. -/
def inspect {m : Type → Type} (s : Step m) : String :=
  let inputs := Text.quoteList s.signature.inputs
  let outputs := Text.quoteList s.signature.outputs
  "FnStep \x7b signature: StepSignature \x7b inputs: " ++ inputs ++ ", outputs: " ++ outputs ++
    " \x7d \x7d"

end Step

end Tableflow
