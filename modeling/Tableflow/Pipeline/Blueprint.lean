import Tableflow.Pipeline
import Tableflow.Pipeline.Schedule

/-!
# Blueprints

A blueprint declares the steps of a pipeline, the edges from outputs to inputs and the inputs that
hold constants, in any order and with nothing checked. `build` makes the pipeline or tells the first
thing that is wrong, in this order: a repeated name of a step; for each edge in turn, an unknown
step, output or input, or an input that is bound already; the same for each constant; an input that
is bound to nothing; a cycle.
-/

namespace Tableflow

/-- A step under a name. -/
structure NamedStep (m : Type → Type) where
  name : String
  step : Step m

/-- An edge from an output of a step to an input of a step. -/
structure Edge where
  source : String
  output : String
  target : String
  input : String
  deriving DecidableEq

/-- A constant for an input of a step. -/
structure Constant where
  step : String
  input : String
  value : Artifact

/-- The declaration of a pipeline. -/
structure Blueprint (m : Type → Type) where
  name : String
  steps : List (NamedStep m)
  edges : List Edge
  constants : List Constant

/-- The binding of an input of a step. -/
structure Binding where
  step : String
  input : String
  source : Source

/-- The first text of a list that stands in it before. -/
def firstRepeated (seen : List String) : List String → Option String
  | [] => none
  | text :: rest => if text ∈ seen then some text else firstRepeated (text :: seen) rest

namespace Blueprint

variable {m : Type → Type}

/-! ## Bindings -/

/-- The declared names of the step of a name. -/
def signatureOf (b : Blueprint m) (name : String) : Except Fault Signature :=
  match b.steps.find? fun s => s.name = name with
  | some s => .ok s.step.signature
  | none => .error (.unknownStep name)

/-- Adds the binding of an input of a step with the given names to those made before. -/
def addBinding (made : List Binding) (target : Signature) (binding : Binding) :
    Except Fault (List Binding) :=
  if !target.hasInput binding.input then .error (.unknownInput binding.step binding.input)
  else if made.any fun other => other.step = binding.step && other.input = binding.input then
    .error (.duplicateBinding binding.step binding.input)
  else .ok (made ++ [binding])

/-- Adds the binding that an edge makes. -/
def bindEdge (b : Blueprint m) (made : List Binding) (edge : Edge) :
    Except Fault (List Binding) := do
  let source ← b.signatureOf edge.source
  let target ← b.signatureOf edge.target
  if !source.hasOutput edge.output then .error (.unknownOutput edge.source edge.output)
  else addBinding made target ⟨edge.target, edge.input, .output edge.source edge.output⟩

/-- Adds the binding that a constant makes. -/
def bindConstant (b : Blueprint m) (made : List Binding) (constant : Constant) :
    Except Fault (List Binding) := do
  let target ← b.signatureOf constant.step
  addBinding made target ⟨constant.step, constant.input, .constant constant.value⟩

/-- The bindings of all edges and constants. -/
def bindings (b : Blueprint m) : Except Fault (List Binding) := do
  b.constants.foldlM b.bindConstant (← b.edges.foldlM b.bindEdge [])

/-! ## Bound steps -/

/-- A step with those of the bindings that are its own. -/
def place (made : List Binding) (s : NamedStep m) : BoundStep m where
  name := s.name
  step := s.step
  bindings :=
    .ofList ((made.filter fun binding => binding.step = s.name).map fun binding =>
      (binding.input, binding.source))

/-- The first input of a step that is bound to nothing. -/
def unbound? (s : BoundStep m) : Option Fault :=
  (s.signature.inputs.find? fun input => !s.bindings.contains input).map (.unresolvedInput s.name)

/-- The numbers of the steps whose outputs the step with a number takes. -/
def predecessorsAt (steps : List (BoundStep m)) (i : Fin steps.length) : List (Fin steps.length) :=
  let names := steps[i].predecessors
  (List.finRange steps.length).filter fun j => steps[j].name ∈ names

/-- The precedence among bound steps: a step comes after the ones whose outputs it takes. -/
def precedence (steps : List (BoundStep m)) : Precedence steps.length where
  predecessors := Vector.ofFn (predecessorsAt steps)
  nodup := by
    intro i
    have hget : (Vector.ofFn (predecessorsAt steps)).get i = predecessorsAt steps i :=
      Vector.getElem_ofFn i.isLt
    rw [hget]
    exact (List.nodup_finRange _).sublist List.filter_sublist

theorem get_predecessors (steps : List (BoundStep m)) (i : Fin steps.length) :
    (precedence steps).predecessors.get i = predecessorsAt steps i :=
  Vector.getElem_ofFn i.isLt

/-- What stands in a row of slots at the given places, where a slot that has been read is empty. -/
def takeSlots {α : Type} {n : Nat} (slots : Vector (Option α) n) : List (Fin n) → List α
  | [] => []
  | i :: rest =>
    match slots.get i with
    | some a => a :: takeSlots (slots.set i none i.isLt) rest
    | none => takeSlots slots rest

/-- Bound steps in the order in which they run. -/
def arrange (name : String) (steps : List (BoundStep m)) : Except Fault (Pipeline m) :=
  match (precedence steps).order with
  | .ok order =>
    let ordered := takeSlots (Vector.ofFn fun i : Fin steps.length => some steps[i]) order
    if ordered.length = order.length then .ok ⟨name, ordered⟩
    else .error (.internal s!"execution order for pipeline '{name}' references a step twice")
  | .error cycle => .error (.cyclicDependency name (cycle.map fun i => steps[i].name))

/-- The pipeline that a blueprint declares. -/
def build (b : Blueprint m) : Except Fault (Pipeline m) := do
  match firstRepeated [] (b.steps.map (·.name)) with
  | some step => .error (.duplicateStep b.name step)
  | none =>
    let made ← b.bindings
    let steps := b.steps.map (place made)
    match steps.findSome? unbound? with
    | some fault => .error fault
    | none => arrange b.name steps

end Blueprint

end Tableflow
