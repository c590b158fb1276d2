import Mathlib.Data.List.Nodup
import Mathlib.Logic.Relation
import Tableflow.Pipeline.Blueprint
import Tableflow.Proofs.Blueprint.Check

/-!
# What a blueprint has to meet

A blueprint is `Wired` if its names are distinct, all that its edges and constants name is declared,
and every declared input is the end of exactly one edge or constant; it is `Valid` if moreover no
step feeds itself through any number of edges. The same requirements in the order in which they are
looked at, each with the fault that reports it, are `Blueprint.checks`. Neither speaks of bindings
or schedules. `pass_wiringChecks_iff` and `pass_checks_iff` join the two.
-/

namespace Tableflow

open Relation

/-- The input that an edge ends at. -/
def Edge.port (e : Edge) : String × String := (e.target, e.input)

/-- The input that a constant is for. -/
def Constant.port (c : Constant) : String × String := (c.step, c.input)

namespace Blueprint

variable {m : Type → Type} (b : Blueprint m)

/-! ## Requirements -/

/-- The names of the steps in the order of their declaration. -/
def stepNames : List String := b.steps.map (·.name)

/-- The inputs that the edges and constants bind, with repetitions. -/
def ports : List (String × String) := b.edges.map Edge.port ++ b.constants.map Constant.port

def DeclaresInput (step input : String) : Prop :=
  ∃ s ∈ b.steps, s.name = step ∧ input ∈ s.step.signature.inputs

def DeclaresOutput (step output : String) : Prop :=
  ∃ s ∈ b.steps, s.name = step ∧ output ∈ s.step.signature.outputs

/-- An edge leads from one step to another. -/
def Feeds (source target : String) : Prop := ∃ e ∈ b.edges, e.source = source ∧ e.target = target

/-- What a blueprint has to meet beside being free of cycles. -/
structure Wired : Prop where
  names_nodup : b.stepNames.Nodup
  edge_declared : ∀ e ∈ b.edges, e.source ∈ b.stepNames ∧ e.target ∈ b.stepNames
  constant_declared : ∀ c ∈ b.constants, c.step ∈ b.stepNames
  output_declared : ∀ e ∈ b.edges, b.DeclaresOutput e.source e.output
  edge_input_declared : ∀ e ∈ b.edges, b.DeclaresInput e.target e.input
  constant_input_declared : ∀ c ∈ b.constants, b.DeclaresInput c.step c.input
  ports_nodup : b.ports.Nodup
  input_bound : ∀ s ∈ b.steps, ∀ input ∈ s.step.signature.inputs, (s.name, input) ∈ b.ports

/-- What a blueprint has to meet. -/
structure Valid : Prop extends Wired b where
  acyclic : ∀ step, ¬ TransGen b.Feeds step step

open Classical in
/-- The steps that feed themselves, in the order of their declaration. -/
noncomputable def cyclicSteps : List String :=
  b.stepNames.filter fun step => TransGen b.Feeds step step

theorem mem_cyclicSteps {step : String} :
    step ∈ b.cyclicSteps ↔ step ∈ b.stepNames ∧ TransGen b.Feeds step step := by
  simp [cyclicSteps]

/-! ## The order of the checks -/

/-- A step's name is not that of a step before. -/
def nameChecks (before : List (NamedStep m)) (s : NamedStep m) : List Check :=
  [⟨s.name ∉ before.map (·.name), .duplicateStep b.name s.name⟩]

/-- What an edge has to meet behind the edges before. -/
def edgeChecks (before : List Edge) (e : Edge) : List Check :=
  [⟨e.source ∈ b.stepNames, .unknownStep e.source⟩,
    ⟨e.target ∈ b.stepNames, .unknownStep e.target⟩,
    ⟨b.DeclaresOutput e.source e.output, .unknownOutput e.source e.output⟩,
    ⟨b.DeclaresInput e.target e.input, .unknownInput e.target e.input⟩,
    ⟨e.port ∉ before.map Edge.port, .duplicateBinding e.target e.input⟩]

/-- What a constant has to meet behind all edges and the constants before. -/
def constantChecks (before : List Constant) (c : Constant) : List Check :=
  [⟨c.step ∈ b.stepNames, .unknownStep c.step⟩,
    ⟨b.DeclaresInput c.step c.input, .unknownInput c.step c.input⟩,
    ⟨c.port ∉ b.edges.map Edge.port ++ before.map Constant.port,
      .duplicateBinding c.step c.input⟩]

/-- An input of a step is bound. -/
def inputCheck (s : NamedStep m) (input : String) : Check :=
  ⟨(s.name, input) ∈ b.ports, .unresolvedInput s.name input⟩

/-- No step feeds itself. -/
noncomputable def cycleCheck : Check :=
  ⟨∀ step, ¬ TransGen b.Feeds step step, .cyclicDependency b.name b.cyclicSteps⟩

/-- All checks but the last one. -/
def wiringChecks : List Check :=
  Check.scan b.nameChecks [] b.steps ++
    (Check.scan b.edgeChecks [] b.edges ++ Check.scan b.constantChecks [] b.constants) ++
    b.steps.flatMap fun s => s.step.signature.inputs.map (b.inputCheck s)

/-- All checks in the order in which they are made. -/
noncomputable def checks : List Check := b.wiringChecks ++ [b.cycleCheck]

/-! ## The requirements are what the checks look at -/

variable {b}

theorem pass_nameChecks_iff :
    Check.Pass (Check.scan b.nameChecks [] b.steps) ↔ b.stepNames.Nodup := by
  have hcheck : ∀ before s, Check.Pass (b.nameChecks before s) ↔
      True ∧ s.name ∉ [] ++ before.map NamedStep.name := by
    simp [nameChecks]
  refine Iff.trans (Check.pass_scan_iff (fun _ => True) NamedStep.name [] hcheck .nil) ?_
  simp [stepNames]

/-- An edge whose steps, output and input are declared. -/
def EdgeDeclared (b : Blueprint m) (e : Edge) : Prop :=
  (e.source ∈ b.stepNames ∧ e.target ∈ b.stepNames) ∧
    b.DeclaresOutput e.source e.output ∧ b.DeclaresInput e.target e.input

theorem pass_edgeChecks_iff :
    Check.Pass (Check.scan b.edgeChecks [] b.edges) ↔
      (∀ e ∈ b.edges, b.EdgeDeclared e) ∧ (b.edges.map Edge.port).Nodup := by
  have hcheck : ∀ before e, Check.Pass (b.edgeChecks before e) ↔
      b.EdgeDeclared e ∧ e.port ∉ [] ++ before.map Edge.port := by
    simp [edgeChecks, EdgeDeclared, and_assoc]
  exact Check.pass_scan_iff b.EdgeDeclared Edge.port [] hcheck List.nodup_nil

/-- A constant whose step and input are declared. -/
def ConstantDeclared (b : Blueprint m) (c : Constant) : Prop :=
  c.step ∈ b.stepNames ∧ b.DeclaresInput c.step c.input

theorem pass_constantChecks_iff (h : (b.edges.map Edge.port).Nodup) :
    Check.Pass (Check.scan b.constantChecks [] b.constants) ↔
      (∀ c ∈ b.constants, b.ConstantDeclared c) ∧ b.ports.Nodup := by
  have hcheck : ∀ before c, Check.Pass (b.constantChecks before c) ↔
      b.ConstantDeclared c ∧ c.port ∉ b.edges.map Edge.port ++ before.map Constant.port := by
    simp [constantChecks, ConstantDeclared, and_assoc]
  refine Check.pass_scan_iff b.ConstantDeclared Constant.port _ hcheck ?_
  rwa [List.map_nil, List.append_nil]

theorem pass_wiringChecks_iff : Check.Pass b.wiringChecks ↔ b.Wired := by
  simp only [wiringChecks, Check.pass_append, Check.pass_flatMap, Check.pass_map, inputCheck,
    pass_nameChecks_iff, pass_edgeChecks_iff]
  constructor
  · rintro ⟨⟨hnames, ⟨hedges, hports⟩, hconstants⟩, hbound⟩
    obtain ⟨hconstants, hports⟩ := (pass_constantChecks_iff hports).1 hconstants
    exact ⟨hnames, fun e he => (hedges e he).1, fun c hc => (hconstants c hc).1,
      fun e he => (hedges e he).2.1, fun e he => (hedges e he).2.2,
      fun c hc => (hconstants c hc).2, hports, hbound⟩
  · intro h
    have hports := (List.nodup_append.1 h.ports_nodup).1
    exact ⟨⟨h.names_nodup,
      ⟨fun e he => ⟨h.edge_declared e he, h.output_declared e he, h.edge_input_declared e he⟩,
        hports⟩,
      (pass_constantChecks_iff hports).2 ⟨fun c hc =>
        ⟨h.constant_declared c hc, h.constant_input_declared c hc⟩, h.ports_nodup⟩⟩,
      h.input_bound⟩

theorem pass_checks_iff : Check.Pass b.checks ↔ b.Valid := by
  rw [checks, Check.pass_append, pass_wiringChecks_iff, Check.pass_cons]
  exact ⟨fun h => ⟨h.1, h.2.1⟩, fun h => ⟨h.1, h.2, Check.pass_nil⟩⟩

end Blueprint

end Tableflow
