import Tableflow.App.Settings
import Tableflow.Json.Defect
import Tableflow.Text.Line
import Tableflow.Text.Pad

/-!
# How the program ends early

Everything that ends the program before its work is done, with the report that is left on the error
output: the text of the fault and, under it, the texts of its causes.
-/

namespace Tableflow

/-- What the program itself reports. -/
inductive AppFault
  | config (defect : SettingsDefect)
  | pipeline (source : Fault)
  | output (reason : String)
  deriving DecidableEq

namespace AppFault

def message : AppFault → String
  | .config defect =>
    let text := defect.message
    s!"Configuration Error: {text}"
  | .pipeline source =>
    let text := source.message
    s!"Pipeline Error: {text}"
  | .output reason => s!"Output Error: {reason}"

/-- The report that a file could not be used. -/
def ofFile (fault : FileFault) : AppFault := .output fault.message

/-- The report that a text is no JSON, if it is none. -/
def ofText? (text : String) : Option AppFault := (Json.textDefect? text).map .output

/-- The texts of the causes, the nearest first. -/
def sources : AppFault → List String
  | .pipeline source => source.message :: source.sources
  | .config _ | .output _ => []

end AppFault

/-- What can end the program. -/
inductive Ending
  | app (fault : AppFault)
  | fault (fault : Fault)
  | file (fault : FileFault)
  deriving DecidableEq

namespace Ending

def message : Ending → String
  | .app f => f.message
  | .fault f => f.message
  | .file f => f.message

/-- The texts of the causes, the nearest first. -/
def sources : Ending → List String
  | .app f => f.sources
  | .fault f => f.sources
  | .file _ => []

/-- A cause after its heading, with the lines after the first one under it. -/
def indent (heading text : String) : String :=
  let lines := (Text.fields '\n' text.toList).map String.ofList
  heading ++ ("\n" ++ String.ofList (heading.toList.map fun _ => ' ')).intercalate lines

/-- The causes, with numbers if there are several. -/
def causes : List String → String
  | [] => ""
  | [only] => "\n\nCaused by:\n" ++ indent "    " only
  | several =>
    let numbered := several.mapIdx fun i text =>
      indent (Text.alignRight 5 (toString i) ++ ": ") text
    "\n\nCaused by:\n" ++ "\n".intercalate numbered

/-- The report on the error output. -/
def report (e : Ending) : String := "Error: " ++ e.message ++ causes e.sources ++ "\n"

end Ending

end Tableflow
