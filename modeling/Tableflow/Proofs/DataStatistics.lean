import Tableflow.Facets.Visualization
import Tableflow.Pipeline.DataStatistics
import Tableflow.Proofs.Blueprint.Order
import Tableflow.Proofs.Execution.Shape
import Tableflow.Proofs.Provider

/-!
# The pipeline of data statistics

The pipeline has a step that imports the parts of a split and one that compares the features of
them. It can always be built (`pipeline_eq`), and since both steps are known, an execution is told
by what it gets from outside: the time, and what the provider loads (`Observation`, `observe`).
The equation `execute_eq` says so, from one equation for each of the two steps.

A run shows the parts of the split and their comparison, each in an artifact with notes, or the
fault of the provider behind the failed import and nothing else (`Reports`). For a provider of
delimited text, the fault is told by the bytes of the file (`pipeline_reports`).
-/

namespace Tableflow

variable {m : Type → Type} [Monad m]

namespace DataStatistics

open Relation

/-! ## The built pipeline -/

theorem feeds_iff {name source target : String} {p : Provider m} :
    (blueprint name p).Feeds source target ↔ source = importer ∧ target = visualizer := by
  simp [Blueprint.Feeds, blueprint, eq_comm]

theorem wired_blueprint (name : String) (p : Provider m) : (blueprint name p).Wired where
  names_nodup := (by decide : [importer, visualizer].Nodup)
  edge_declared := by simp [blueprint, Blueprint.stepNames]
  constant_declared := by simp [blueprint]
  output_declared := by
    simp [blueprint, Blueprint.DeclaresOutput, importStep, Step.ofFallible]
  edge_input_declared := by
    simp [blueprint, Blueprint.DeclaresInput, facetsStep, Step.ofFallible]
  constant_input_declared := by simp [blueprint]
  ports_nodup :=
    (by decide : [(visualizer, FacetsStep.left), (visualizer, FacetsStep.right)].Nodup)
  input_bound := by
    simp [blueprint, Blueprint.ports, Edge.port, importStep, facetsStep, Step.ofFallible]

theorem valid_blueprint (name : String) (p : Provider m) : (blueprint name p).Valid where
  toWired := wired_blueprint name p
  acyclic step hcycle := by
    obtain ⟨_, hfirst, -⟩ := TransGen.head'_iff.1 hcycle
    obtain ⟨_, -, hlast⟩ := TransGen.tail'_iff.1 hcycle
    have hsame : importer = visualizer := (feeds_iff.1 hfirst).1.symm.trans (feeds_iff.1 hlast).2
    exact absurd hsame (by decide)

/-- The importing step of the built pipeline. -/
def boundImporter (p : Provider m) : BoundStep m := ⟨importer, importStep p, .empty⟩

/-- The comparing step of the built pipeline. -/
def boundVisualizer : BoundStep m where
  name := visualizer
  step := facetsStep FacetsStep.trainLabel FacetsStep.testLabel
  bindings := .ofList [(FacetsStep.left, .output importer ImportStep.xTrain),
    (FacetsStep.right, .output importer ImportStep.xTest)]

/-- A step of the pipeline is one of the two bound steps, told by its name. -/
theorem eq_of_arranged {name : String} {p : Provider m} {built : Pipeline m}
    (h : (blueprint name p).Arranged built) {s : BoundStep m} (hs : s ∈ built.steps) :
    s.name = importer ∧ s = boundImporter p ∨ s.name = visualizer ∧ s = boundVisualizer := by
  obtain ⟨t, ht, rfl⟩ := h.exists_place_of_mem hs
  rcases List.mem_pair.1 ht with rfl | rfl
  · exact .inl ⟨rfl, rfl⟩
  · exact .inr ⟨rfl, rfl⟩

/-- The pipeline is built, with the importing step before the comparing one. -/
theorem pipeline_eq (name : String) (p : Provider m) :
    pipeline name p = .ok ⟨name, [boundImporter p, boundVisualizer]⟩ := by
  obtain ⟨built, hbuild, harranged⟩ := Blueprint.exists_build_of_valid (valid_blueprint name p)
  have htopological := harranged.topological (wired_blueprint name p)
  have hnames : [importer, visualizer] = built.stepNames :=
    (htopological.before _ List.mem_cons_self).eq_of_length htopological.perm.length_eq.symm
  have hname : built.name = name := by
    obtain ⟨_, -, -, rfl⟩ := harranged
    rfl
  -- two steps under these names can only be the two bound steps
  obtain ⟨first, rest, hsteps, hfirst, hrest⟩ := List.map_eq_cons_iff.1 hnames.symm
  obtain ⟨second, rest, rfl, hsecond, hnil⟩ := List.map_eq_cons_iff.1 hrest
  obtain rfl := List.map_eq_nil_iff.1 hnil
  have hne : importer ≠ visualizer := by decide
  have himporter : first = boundImporter p := by
    rcases eq_of_arranged harranged (hsteps ▸ List.mem_cons_self) with ⟨-, h⟩ | ⟨h, -⟩
    · exact h
    · exact absurd (hfirst.symm.trans h) hne
  have hvisualizer : second = boundVisualizer := by
    rcases eq_of_arranged harranged (hsteps ▸ List.mem_cons_of_mem _ List.mem_cons_self)
      with ⟨h, -⟩ | ⟨-, h⟩
    · exact absurd (h.symm.trans hsecond) hne
    · exact h
  obtain ⟨builtName, builtSteps⟩ := built
  rw [himporter, hvisualizer] at hsteps
  exact hbuild.trans (congrArg Except.ok (congrArg₂ Pipeline.mk hname hsteps))

/-! ## What the steps do -/

/-- The inputs of the comparing step for a split. -/
def comparisonInputs (s : Split) : Inputs where
  step := visualizer
  values := .ofList [(FacetsStep.left, ImportStep.ofTable s.xTrain),
    (FacetsStep.right, ImportStep.ofTable s.xTest)]

/-- The comparison of the features of a split. -/
def comparison (s : Split) : Comparison :=
  .of FacetsStep.trainLabel s.xTrain FacetsStep.testLabel s.xTest

/-- The outputs of the comparing step for a split. -/
def comparisonOutputs (s : Split) : Outputs :=
  .ofList [(FacetsStep.statistics, (Artifact.of .comparison (comparison s)).withMetadata "features"
    (.natural (comparison s).featureNames.length))]

/-- What the importing step hands on: the parts of a split, or the fault of the provider. -/
def importResult (loaded : Except Fault Split) : Except Trace Outputs :=
  (loaded.map ImportStep.outputs).mapError .fault

/-- The parts of a split are just the declared outputs. -/
theorem conclude_importer (p : Provider m) (loaded : Except Fault Split) :
    (boundImporter p).conclude (importResult loaded) = importResult loaded := by
  cases loaded with
  | error fault => rfl
  | ok s =>
    have hcheck : (boundImporter p).checkOutputs (ImportStep.outputs s) =
        .ok (ImportStep.outputs s) := by
      cbv
    exact congrArg (Except.mapError Trace.fault) hcheck

theorem perform_importer [LawfulMonad m] (p : Provider m) :
    (boundImporter p).perform .empty = importResult <$> p.load := by
  have hinputs : (boundImporter p).gatherInputs .empty = .ok ⟨importer, .empty⟩ := rfl
  have hbody : (boundImporter p).step.body ⟨importer, .empty⟩ = importResult <$> p.load := by
    simp only [boundImporter, importStep, Step.ofFallible, bind_pure_comp, Functor.map_map]
    rfl
  rw [BoundStep.perform, hinputs]
  simp only [hbody, bind_pure_comp, Functor.map_map, conclude_importer]

/-- The transcript behind the importing step. -/
def imported (started finished : Instant) (loaded : Except Fault Split) : Transcript :=
  Transcript.empty.record importer started finished (importResult loaded)

/-- Behind the importing step the inputs of the comparing one are the features of the split. -/
theorem gatherInputs_visualizer (started finished : Instant) (s : Split) :
    (boundVisualizer (m := m)).gatherInputs (imported started finished (.ok s)) =
      .ok (comparisonInputs s) := by
  cbv

theorem outputs_comparisonInputs (s : Split) :
    FacetsStep.outputs FacetsStep.trainLabel FacetsStep.testLabel (comparisonInputs s) =
      .ok (comparisonOutputs s) := by
  have hleft : (comparisonInputs s).get .table FacetsStep.left = .ok s.xTrain := by cbv
  have hright : (comparisonInputs s).get .table FacetsStep.right = .ok s.xTest := by cbv
  rw [FacetsStep.outputs, hleft, hright]
  rfl

theorem perform_visualizer [LawfulMonad m] (started finished : Instant) (s : Split) :
    (boundVisualizer (m := m)).perform (imported started finished (.ok s)) =
      pure (.ok (comparisonOutputs s)) := by
  have hconclude : (boundVisualizer (m := m)).conclude (.ok (comparisonOutputs s)) =
      .ok (comparisonOutputs s) := rfl
  rw [BoundStep.perform, gatherInputs_visualizer]
  simp only [boundVisualizer, facetsStep, Step.ofFallible, pure_bind, outputs_comparisonInputs]
  exact congrArg pure hconclude

/-! ## Executions -/

/-- What an execution gets from outside: the time, whenever it asks for it, and what is loaded. -/
structure Observation where
  started : Instant
  importStarted : Instant
  loaded : Except Fault Split
  importFinished : Instant
  /-- The times of the comparing step, if it is run. -/
  compared : Option (Instant × Instant)
  finished : Instant

/-- The times of the comparing step, which is run if there is a split. -/
def compareTimes (now : m Instant) : Except Fault Split → m (Option (Instant × Instant))
  | .ok _ => return some (← now, ← now)
  | .error _ => return none

/-- What an execution asks for, in order; the provider is asked once. -/
def observe (p : Provider m) (now : m Instant) : m Observation := do
  let started ← now
  let importStarted ← now
  let loaded ← p.load
  let importFinished ← now
  let compared ← compareTimes now loaded
  let finished ← now
  return { started, importStarted, loaded, importFinished, compared, finished }

/-- The transcript behind both steps. -/
def transcript (started finished : Instant) (loaded : Except Fault Split)
    (compared : Option (Instant × Instant)) : Transcript :=
  let behind := imported started finished loaded
  match loaded with
  | .ok s =>
    let (started, finished) := compared.getD (started, finished)
    behind.record visualizer started finished (.ok (comparisonOutputs s))
  | .error _ => behind.skip visualizer

/-- What an execution hands back. -/
def outcome (name : String) (id : RunId) (seen : Observation) : Outcome :=
  (transcript seen.importStarted seen.importFinished seen.loaded seen.compared).outcome id name
    seen.started seen.finished

theorem advance_visualizer [LawfulMonad m] (now : m Instant) (started finished : Instant)
    (loaded : Except Fault Split) :
    Transcript.advance now (imported started finished loaded) boundVisualizer =
      transcript started finished loaded <$> compareTimes now loaded := by
  cases loaded with
  | error fault =>
    rw [compareTimes, map_pure]
    rfl
  | ok s =>
    have hintact : (imported started finished (.ok s)).breakdown = none := rfl
    simp only [Transcript.advance, hintact, perform_visualizer, pure_bind, compareTimes, map_bind,
      map_pure]
    rfl

/-- Executing the pipeline is asking for what it depends on and recording it. -/
theorem execute_eq [LawfulMonad m] (name : String) (p : Provider m) (id : RunId)
    (now : m Instant) :
    (⟨name, [boundImporter p, boundVisualizer]⟩ : Pipeline m).execute id now =
      outcome name id <$> observe p now := by
  have hfirst : Transcript.advance now .empty (boundImporter p) = do
      let started ← now
      let loaded ← p.load
      let finished ← now
      return imported started finished loaded := by
    have hintact : Transcript.empty.breakdown = none := rfl
    simp only [Transcript.advance, hintact, perform_importer, bind_map_left]
    rfl
  simp only [Pipeline.execute, List.foldlM_cons, List.foldlM_nil, hfirst, advance_visualizer,
    bind_assoc, bind_map_left, pure_bind, observe, map_bind, map_pure, bind_pure]
  rfl

/-! ## What is reported -/

/-- An artifact is a value with notes of its number of rows and the names of its columns. -/
structure Holds (a : Artifact) (kind : Kind) (value : kind.Carrier) (rows : Nat)
    (columns : List String) : Prop where
  value : a.value? kind = some value
  noted : ∀ key note, a.metadata.find? key = some note ↔
    key = "rows" ∧ note = .natural rows ∨
      key = "columns" ∧ note = .array (columns.map Json.Value.string)

/-- The outputs are the parts of a split. -/
structure HoldsParts (outputs : Outputs) (s : Split) : Prop where
  keys : ∀ key, key ∈ outputs.keys ↔ key ∈ ["X_train", "X_test", "y_train", "y_test"]
  xTrain : ∃ a, outputs.find? "X_train" = some a ∧
    Holds a .table s.xTrain s.xTrain.numRows s.xTrain.names
  xTest : ∃ a, outputs.find? "X_test" = some a ∧
    Holds a .table s.xTest s.xTest.numRows s.xTest.names
  yTrain : ∃ a, outputs.find? "y_train" = some a ∧
    Holds a .series s.yTrain s.yTrain.length [s.yTrain.name]
  yTest : ∃ a, outputs.find? "y_test" = some a ∧
    Holds a .series s.yTest s.yTest.length [s.yTest.name]

/-- The only output is a comparison with a note of the number of its features. -/
structure HoldsComparison (outputs : Outputs) (c : Comparison) : Prop where
  keys : ∀ key, key ∈ outputs.keys ↔ key = "statistics"
  comparison : ∃ a, outputs.find? "statistics" = some a ∧ a.value? .comparison = some c ∧
    ∀ key note, a.metadata.find? key = some note ↔
      key = "features" ∧ note = .natural c.featureNames.length

/-- What a run shows if a split is loaded. -/
structure ReportsSplit (s : Split) (o : Outcome) : Prop where
  completed : o.run.status = .completed ∧ o.error = none
  importer : ∃ r, o.run.getStep importer = .ok r ∧ r.Completed ∧ HoldsParts r.outputs s
  visualizer : ∃ r, o.run.getStep visualizer = .ok r ∧ r.Completed ∧
    HoldsComparison r.outputs ⟨.of "train" s.xTrain, .of "test" s.xTest⟩ ∧
    Visualization.ofStepRun r =
      .ok (.ofComparison r.name ⟨.of "train" s.xTrain, .of "test" s.xTest⟩)

/-- What a run shows if nothing can be loaded. -/
structure ReportsFault (fault : Fault) (o : Outcome) : Prop where
  failed : o.run.status = .failed
  importer : ∃ r, o.run.getStep importer = .ok r ∧ r.Failed
  visualizer : ∃ r, o.run.getStep visualizer = .ok r ∧ r.NotRun
  blank : ∀ r ∈ o.run.steps, r.outputs = .empty
  error : ∃ trace, o.error = some (.stepFailed o.run.id DataStatistics.importer trace) ∧
    trace.fault? = some fault

/-- What a run shows. -/
structure Reports (name : String) (id : RunId) (loaded : Except Fault Split) (o : Outcome) :
    Prop where
  identified : o.run.id = id ∧ o.run.pipeline = name
  steps : o.run.steps.map StepRun.name = [importer, visualizer]
  split : ∀ s, loaded = .ok s → ReportsSplit s o
  fault : ∀ fault, loaded = .error fault → ReportsFault fault o

theorem holds_describe (kind : Kind) (value : kind.Carrier) (rows : Nat) (columns : List String) :
    Holds (ImportStep.describe (.of kind value) rows columns) kind value rows columns := by
  refine ⟨?_, fun key note => ?_⟩
  · exact Artifact.value?_self (.of kind value)
  · simp only [ImportStep.describe, Artifact.withMetadata, Artifact.of, Dictionary.find?_insert,
      Dictionary.find?_empty]
    split
    · next h => simp [h, eq_comm]
    · next h =>
      split
      · next h' => simp [h', eq_comm]
      · next h' => simp [h, h']

theorem holdsParts_outputs (s : Split) : HoldsParts (ImportStep.outputs s) s where
  keys key := by
    simp [ImportStep.outputs, Dictionary.mem_keys_ofList, ImportStep.xTrain, ImportStep.xTest,
      ImportStep.yTrain, ImportStep.yTest]
  xTrain := ⟨ImportStep.ofTable s.xTrain, by cbv, holds_describe ..⟩
  xTest := ⟨ImportStep.ofTable s.xTest, by cbv, holds_describe ..⟩
  yTrain := ⟨ImportStep.ofSeries s.yTrain, by cbv, holds_describe ..⟩
  yTest := ⟨ImportStep.ofSeries s.yTest, by cbv, holds_describe ..⟩

theorem holdsComparison_outputs (s : Split) :
    HoldsComparison (comparisonOutputs s) (comparison s) where
  keys key := by simp [comparisonOutputs, Dictionary.mem_keys_ofList, FacetsStep.statistics]
  comparison := by
    refine ⟨_, rfl, rfl, fun key note => ?_⟩
    simp only [Artifact.withMetadata, Artifact.of, Dictionary.find?_insert,
      Dictionary.find?_empty]
    split
    · next h => simp [h, eq_comm]
    · next h => simp [h]

theorem reports_outcome (name : String) (id : RunId) (seen : Observation) :
    Reports name id seen.loaded (outcome name id seen) := by
  obtain ⟨started, importStarted, loaded, importFinished, compared, finished⟩ := seen
  cases loaded with
  | error fault =>
    refine ⟨⟨rfl, rfl⟩, rfl, by simp, fun fault' h => ?_⟩
    obtain rfl := Except.error.inj h
    have hblank : ∀ r ∈ [StepRun.mk importer (.failed importStarted importFinished),
        StepRun.mk visualizer .notRun], r.outputs = .empty := by
      simp [StepRun.outputs, StepResult.outputs]
    exact ⟨rfl, ⟨_, rfl, _, _, rfl⟩, ⟨_, rfl, rfl⟩, hblank, ⟨_, rfl, rfl⟩⟩
  | ok s =>
    refine ⟨⟨rfl, rfl⟩, rfl, fun s' h => ?_, by simp⟩
    obtain rfl := Except.ok.inj h
    exact ⟨⟨rfl, rfl⟩, ⟨_, rfl, ⟨_, _, _, rfl⟩, holdsParts_outputs s⟩,
      ⟨_, rfl, ⟨_, _, _, rfl⟩, holdsComparison_outputs s, rfl⟩⟩

/-- The pipeline is built, and each of its runs shows the parts of the split that is loaded and
their comparison, or the fault of the provider and nothing else. What a provider of delimited text
loads is told by the bytes of its file. -/
theorem pipeline_reports [LawfulMonad m] (name : String) (p : Provider m) :
    (∃ built, pipeline name p = .ok built ∧
      built.stepNames = ["importer", "facets_visualizer"] ∧
      ∀ id now, ∃ outcome, built.execute id now = outcome <$> observe p now ∧
        ∀ seen, Reports name id seen.loaded (outcome seen)) ∧
    ∀ [FileSystem m] path label delimiter config, ∃ verdict,
      (Provider.csv path label delimiter config : Provider m).load =
          verdict <$> FileSystem.readBytes path ∧
        ∀ read, CsvVerdict path label delimiter config read (verdict read) :=
  ⟨⟨_, pipeline_eq name p, rfl, fun id now =>
      ⟨outcome name id, execute_eq name p id now, reports_outcome name id⟩⟩,
    fun path label delimiter config =>
      ⟨_, Provider.load_csv path label delimiter config,
        Provider.csvVerdict path label delimiter config⟩⟩

/-- Two rows under a heading. -/
def petText : String := "weight,kind\n1,cat\n2,dog\n"

/-- Files of which each holds these rows, whatever its name is. -/
@[reducible]
def petFiles : FileSystem Id where
  readBytes _ := .ok petText.toUTF8
  writeText _ _ := .error .alreadyExists
  createDirectory _ := .error .alreadyExists
  isDirectory _ := false

/-- The first one of two rows is trained on and the second one is tested on. -/
def halves : SplitConfig := ⟨⟨0x3fe0000000000000⟩, 0, false⟩

theorem exists_split_petText :
    ∃ features labels s, Csv.parseLabeled petText ',' "kind" = .ok (features, labels) ∧
      Split.of features labels halves = .ok s ∧ s.xTest.index = [1] := by
  have hindex : ((Csv.parseLabeled petText ',' "kind").toOption.bind fun parts =>
      (Split.of parts.1 parts.2 halves).toOption.map fun s => s.xTest.index) = some [1] := by
    decide +kernel
  cases hparse : Csv.parseLabeled petText ',' "kind" with
  | error defect =>
    rw [hparse] at hindex
    cases hindex
  | ok parts =>
    cases hsplit : Split.of parts.1 parts.2 halves with
    | error defect =>
      rw [hparse, Except.toOption, Option.bind_some, hsplit] at hindex
      cases hindex
    | ok s =>
      rw [hparse, Except.toOption, Option.bind_some, hsplit] at hindex
      exact ⟨_, _, s, rfl, hsplit, Option.some.inj hindex⟩

/-- The file is loaded, and its rows are compared. -/
theorem petFiles_reports :
    ∃ built o s, pipeline "pets" (@Provider.csv Id _ petFiles "pets.csv" "kind" ',' halves) =
        .ok built ∧
      built.execute ⟨1⟩ (pure ⟨0⟩ : Id Instant) = pure o ∧
      Reports "pets" ⟨1⟩ (.ok s) o ∧ s.xTest.index = [1] := by
  obtain ⟨⟨built, hbuild, -, hexecute⟩, hcsv⟩ := pipeline_reports "pets"
    (@Provider.csv Id _ petFiles "pets.csv" "kind" ',' halves)
  obtain ⟨outcome, houtcome, hreports⟩ := hexecute ⟨1⟩ (pure ⟨0⟩)
  obtain ⟨verdict, hload, hverdict⟩ := @hcsv petFiles "pets.csv" "kind" ',' halves
  obtain ⟨features, labels, s, hparse, hsplit, hindex⟩ := exists_split_petText
  have hs : verdict (.ok petText.toUTF8) = .ok s :=
    ((hverdict _).split s).2
      ⟨petText, features, labels, ⟨_, rfl, by decide +kernel⟩, hparse, hsplit⟩
  let seen : Observation := ⟨⟨0⟩, ⟨0⟩, .ok s, ⟨0⟩, some (⟨0⟩, ⟨0⟩), ⟨0⟩⟩
  refine ⟨built, outcome seen, s, hbuild, ?_, hreports seen, hindex⟩
  rw [houtcome, observe, hload, show @FileSystem.readBytes Id petFiles "pets.csv" =
    pure (.ok petText.toUTF8) from rfl]
  simp only [map_pure, pure_bind, hs, compareTimes, seen]

end DataStatistics

end Tableflow
