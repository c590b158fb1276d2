import Tableflow.App.EnvFile
import Tableflow.App.Fault
import Tableflow.Facets.Visualization
import Tableflow.Pipeline.DataStatistics
import Tableflow.Registry

/-!
# The program

The program splits the iris flowers, or a file of delimited text, into training and test rows,
prints how their statistics compare, and leaves the comparison as a page and the record of the run
in a directory. It works in any monad in which there are files, variables, a terminal and a clock.
-/

namespace Tableflow

/-- What the program asks of its surroundings beside files. -/
structure Surroundings (m : Type → Type) where
  /-- The value of a variable. -/
  getVariable : String → m (Option String)
  /-- Prints a text. -/
  print : String → m Unit
  /-- An identifier for a run. -/
  newId : m RunId
  /-- The time. -/
  now : m Instant

namespace Program

variable {m : Type → Type} [Monad m]

/-- The name of the program's pipeline. -/
def pipelineName : String := "facets_pipeline"

/-- The name of the file that holds the record. -/
def recordName : String := "runs.json"

/-- The variables that are set for the program: its own ones and those that a file of variables
adds to them. -/
def environment (s : Surroundings m) (envFile : Option ByteArray) : m (Dictionary String) := do
  let assignments := (envFile.map EnvFile.read).getD []
  let entries ← (Settings.variableNames ++ EnvFile.mentioned assignments).filterMapM fun name =>
    return (← s.getVariable name).map fun value => (name, value)
  return EnvFile.apply (.ofList entries) assignments

/-- The provider that the settings ask for. -/
def provider [FileSystem m] (settings : Settings) : Provider m :=
  match settings.source with
  | some file => .csv file.path file.label ',' settings.split
  | none => .iris settings.split

/-- The result of a part of the program. -/
def stage {α ε : Type} (ending : ε → Ending) (result : m (Except ε α)) : ExceptT Ending m α :=
  ExceptT.mk do return (← result).mapError ending

/-- Settings from some variables. -/
def settings (env : Dictionary String) : Except Ending Settings :=
  (Settings.ofLookup env.find?).mapError fun defect => .app (.config defect)

/-- The registry after its pipeline has run. -/
def compute [FileSystem m] (s : Surroundings m) (settings : Settings) :
    ExceptT Ending m (Registry m) := do
  let pipeline ← stage (fun fault => .app (.pipeline fault))
    (pure (DataStatistics.pipeline pipelineName (provider settings)))
  let (result, registry) ← ExceptT.lift do
    (Registry.empty.register pipeline).run pipelineName (← s.newId) s.now
  let _ ← stage .fault (pure result)
  return registry

/-- Prints the comparison and writes it to the output directory. -/
def present [FileSystem m] (s : Surroundings m) (settings : Settings) (registry : Registry m) :
    ExceptT Ending m Unit := do
  let run ← stage .fault (pure (registry.latestRun pipelineName))
  -- the importing step has to be there, although nothing of it is presented
  let _ ← stage .fault (pure (run.getStep DataStatistics.importer))
  let step ← stage .fault (pure (run.getStep DataStatistics.visualizer))
  let visualization ← stage .fault (pure (Visualization.ofStepRun step))
  ExceptT.lift (s.print (visualization.text ++ "\n"))
  stage .fault (visualization.save
    (Path.join settings.outputDirectory (run.id.text ++ ".html")))
  stage .file (FileSystem.writeText (Path.join settings.outputDirectory recordName)
    (registry.exportSummaries pipelineName))

/-- The program, with the content of the file of variables if there is one. -/
def run [FileSystem m] (s : Surroundings m) (envFile : Option ByteArray) :
    ExceptT Ending m Unit := do
  let settings ← stage id (return settings (← environment s envFile))
  present s settings (← compute s settings)

end Program

end Tableflow
