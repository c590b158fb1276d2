import Tableflow.App.Program
import Tableflow.Proofs.DataStatistics
import Tableflow.Proofs.Registry.Service

/-!
# The parts of the program

In any surroundings whose variables are fixed, the program is told by its settings, by what an
execution of its pipeline observes, and by what is written afterwards. The equations for the parts
are `environment_eq`, `compute_eq` and `present_eq`.
-/

namespace Tableflow.Program

open DataStatistics (observe outcome importer visualizer comparison)

variable {m : Type → Type} [Monad m] [LawfulMonad m] (s : Surroundings m)

/-! ## Settings -/

/-- The variables that are set for the program: those of its process, and those that a file of
variables adds to them. -/
def effective (process : String → Option String) (envFile : Option ByteArray) :
    Dictionary String :=
  let assignments := (envFile.map EnvFile.read).getD []
  let entries := (Settings.variableNames ++ EnvFile.mentioned assignments).filterMap fun name =>
    (process name).map fun value => (name, value)
  EnvFile.apply (.ofList entries) assignments

theorem filterMapM_pure {α β : Type} (f : α → Option β) (as : List α) :
    (as.filterMapM fun a => (pure (f a) : m (Option β))) = pure (as.filterMap f) := by
  induction as with
  | nil => rfl
  | cons a rest ih =>
    rw [List.filterMapM_cons, pure_bind, ih, List.filterMap_cons]
    cases f a <;> simp

variable {s} in
theorem environment_eq {process : String → Option String}
    (h : ∀ name, s.getVariable name = pure (process name)) (envFile : Option ByteArray) :
    environment s envFile = pure (effective process envFile) := by
  simp only [environment, h, pure_bind, filterMapM_pure]
  rfl

theorem mapError_ok {α ε ε' : Type} (f : ε → ε') (a : α) :
    (Except.ok a : Except ε α).mapError f = .ok a := rfl

theorem run_stage {α ε : Type} (ending : ε → Ending) (result : m (Except ε α)) :
    (stage ending result).run = Except.mapError ending <$> result := by
  rw [stage, ExceptT.run_mk, bind_pure_comp]

/-! ## Computing -/

variable [FileSystem m] (settings : Settings)

/-- The pipeline that is run. -/
def builtPipeline : Pipeline m :=
  ⟨pipelineName, [DataStatistics.boundImporter (provider settings), DataStatistics.boundVisualizer]⟩

/-- What computing comes to: the registry with the run, or the fault that ended it. -/
def computed (o : Outcome) : Except Ending (Registry m) :=
  match o.error with
  | some fault => .error (.fault fault)
  | none => .ok ((Registry.empty.register (builtPipeline settings)).record pipelineName o.run)

/-- Computing is making an identifier and observing what the pipeline depends on. -/
theorem compute_eq : (compute s settings).run = do
    let id ← s.newId
    let seen ← observe (provider settings) s.now
    return computed settings (outcome pipelineName id seen) := by
  have hpipeline : (Registry.empty.register (builtPipeline settings) : Registry m).pipeline
      pipelineName = .ok (builtPipeline settings) := by
    rfl
  simp only [compute, ExceptT.run_bind, run_stage, DataStatistics.pipeline_eq, map_pure, pure_bind,
    mapError_ok, ExceptT.run_lift, bind_map_left, bind_assoc]
  refine bind_congr fun id => ?_
  change (Registry.empty.register (builtPipeline settings) : Registry m).run pipelineName id
    s.now >>= _ = _
  rw [Registry.run_of_pipeline hpipeline, builtPipeline, DataStatistics.execute_eq, bind_map_left,
    bind_map_left]
  refine bind_congr fun seen => ?_
  simp only [computed, Outcome.toExcept]
  cases (outcome pipelineName id seen).error <;> rfl

omit [Monad m] [LawfulMonad m] [FileSystem m] in
/-- The only run of a registry is the latest one and the only one that is exported. -/
theorem record_register (p : Pipeline m) {run : Run} (h : run.pipeline = pipelineName) :
    ((Registry.empty.register p).record pipelineName run).latestRun pipelineName = .ok run ∧
      ((Registry.empty.register p).record pipelineName run).exportSummaries pipelineName =
        (Json.Value.array [run.summary]).pretty := by
  have hhistory : ((Registry.empty.register p).record pipelineName run).allRuns = [run] := rfl
  rw [Registry.latestRun, Registry.exportSummaries, Registry.runs, hhistory]
  simp [h]

/-! ## Presenting -/

/-- What is done when a run has made a comparison: it is printed and saved, and the record of the
run is written beside it, until something cannot be written. -/
def deliver (run : Run) (c : Comparison) : m (Except Ending Unit) := do
  s.print (c.renderText ++ "\n")
  match ← (Visualization.ofComparison visualizer c).save
    (Path.join settings.outputDirectory (run.id.text ++ ".html")) with
  | .error fault => return .error (.fault fault)
  | .ok () =>
    return (← FileSystem.writeText (Path.join settings.outputDirectory recordName)
      (Json.Value.array [run.summary]).pretty).mapError .file

/-- The importing step is found in every run of the pipeline, whatever was loaded. -/
theorem exists_getStep_importer (id : RunId) (seen : DataStatistics.Observation) :
    ∃ step, (outcome pipelineName id seen).run.getStep importer = .ok step := by
  have hreports := DataStatistics.reports_outcome pipelineName id seen
  cases hloaded : seen.loaded with
  | error fault => exact (hreports.fault fault hloaded).importer.imp fun _ h => h.1
  | ok split => exact (hreports.split split hloaded).importer.imp fun _ h => h.1

theorem present_eq {p : Pipeline m} {run : Run} {importerStep step : StepRun} {c : Comparison}
    (hname : run.pipeline = pipelineName) (himporter : run.getStep importer = .ok importerStep)
    (hstep : run.getStep visualizer = .ok step)
    (hcomparison : Visualization.ofStepRun step = .ok (.ofComparison visualizer c)) :
    (present s settings ((Registry.empty.register p).record pipelineName run)).run =
      deliver s settings run c := by
  obtain ⟨hrun, hsummaries⟩ := record_register p hname
  simp only [present, ExceptT.run_bind, run_stage, hrun, himporter, hstep, hcomparison,
    hsummaries, map_pure, pure_bind, mapError_ok, ExceptT.run_lift, bind_map_left]
  refine bind_congr fun _ => bind_congr fun saved => ?_
  cases saved with
  | error fault => rfl
  | ok _ => exact (bind_pure_comp ..).symm

/-! ## The whole program -/

/-- What is done behind an observation. -/
def finish (id : RunId) (seen : DataStatistics.Observation) : m (Except Ending Unit) :=
  match seen.loaded with
  | .error fault => return .error (.fault (.stepFailed id DataStatistics.importer (.fault fault)))
  | .ok split => deliver s settings (outcome pipelineName id seen).run (comparison split)

theorem present_computed (id : RunId) (seen : DataStatistics.Observation) :
    (do
      match computed settings (outcome pipelineName id seen) with
      | .error ending => return .error ending
      | .ok registry => (present s settings registry).run) = finish s settings id seen := by
  obtain ⟨importerStep, himporter⟩ := exists_getStep_importer id seen
  obtain ⟨started, importStarted, loaded, importFinished, compared, finished⟩ := seen
  cases loaded with
  | error fault => rfl
  | ok split => exact present_eq s settings rfl himporter rfl rfl

variable {s}

/-- The program ends with its settings, or observes what its pipeline depends on and goes on with
it. -/
theorem run_eq {process : String → Option String}
    (h : ∀ name, s.getVariable name = pure (process name)) (envFile : Option ByteArray) :
    (run s envFile).run =
      match Settings.ofLookup (effective process envFile).find? with
      | .error defect => pure (.error (.app (.config defect)))
      | .ok settings => s.newId >>= fun id =>
        observe (provider settings) s.now >>= finish s settings id := by
  simp only [run, ExceptT.run_bind, run_stage, environment_eq h, pure_bind, map_pure]
  rw [Program.settings]
  cases Settings.ofLookup (effective process envFile).find? with
  | error defect => rfl
  | ok settings =>
    simp only [mapError_ok, compute_eq, bind_assoc, pure_bind]
    refine bind_congr fun id => bind_congr fun seen => ?_
    rw [← present_computed]
    cases (computed settings (outcome pipelineName id seen) : Except Ending (Registry m)) <;> rfl

end Tableflow.Program
