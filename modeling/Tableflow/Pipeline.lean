import Tableflow.Step

/-!
# Pipelines

A pipeline is a list of named steps in the order in which they run, where every input of a step is
bound to an output of an earlier step or to a constant. Pipelines are made from blueprints, which
see to it that this is so.
-/

namespace Tableflow

/-- Where an input gets its artifact from. -/
inductive Source
  | output (step output : String)
  | constant (value : Artifact)

namespace Source

/-- The step that makes the artifact, if it is no constant. -/
def step? : Source → Option String
  | .output step _ => some step
  | .constant _ => none

end Source

/-- A step of a pipeline, with what its inputs are bound to. -/
structure BoundStep (m : Type → Type) where
  name : String
  step : Step m
  bindings : Dictionary Source

namespace BoundStep

variable {m : Type → Type}

def signature (s : BoundStep m) : Signature := s.step.signature

/-- The names of the steps whose outputs the inputs are bound to, each once and in order. -/
def predecessors (s : BoundStep m) : List String :=
  (Dictionary.ofList ((s.bindings.entries.filterMap (·.2.step?)).map fun name => (name, ()))).keys

end BoundStep

/-- Bound steps in the order in which they run. -/
structure Pipeline (m : Type → Type) where
  name : String
  steps : List (BoundStep m)

namespace Pipeline

variable {m : Type → Type}

/-- The names of the steps in the order in which they run. -/
def stepNames (p : Pipeline m) : List String := p.steps.map (·.name)

def size (p : Pipeline m) : Nat := p.steps.length

def isEmpty (p : Pipeline m) : Bool := p.steps.isEmpty

/-- The step of a name. -/
def step? (p : Pipeline m) (name : String) : Option (BoundStep m) :=
  p.steps.find? fun s => s.name = name

/-- The declared names of the step of a name. -/
def signature? (p : Pipeline m) (name : String) : Option Signature :=
  (p.step? name).map BoundStep.signature

/-- The names of the steps whose outputs a step takes. -/
def predecessorsOf (p : Pipeline m) (name : String) : Except Fault (List String) :=
  match p.step? name with
  | some s => .ok s.predecessors
  | none => .error (.unknownStep name)

/-- A pipeline for inspection: its name and the names of its steps. -/
def inspect (p : Pipeline m) : String :=
  let name := Text.quote p.name
  let steps := Text.quoteList p.stepNames
  "Pipeline \x7b name: " ++ name ++ ", steps: " ++ steps ++ " \x7d"

end Pipeline

end Tableflow
