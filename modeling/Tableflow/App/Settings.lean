import Tableflow.Decimal.Layout
import Tableflow.Decimal.Reader
import Tableflow.Decimal.Word
import Tableflow.Fault
import Tableflow.Table.Split

/-!
# Settings

What the program is told by the variables of its environment. Every setting has a default. A value
that is not accepted ends the reading, and of several the first in the order of the fields of
`Settings` is reported.
-/

namespace Tableflow

/-! ## Causes -/

/-- What is wrong with the settings. -/
inductive SettingsDefect
  | testSizeText (text : String) (refusal : Decimal.Refusal)
  | testSizeRange (size : Double)
  | seedText (text : String) (refusal : Decimal.WordRefusal)
  | logFormat (word : String)
  | noLabel
  | other (reason : String)
  deriving DecidableEq

/-- The wording of a defect. -/
def SettingsDefect.message : SettingsDefect → String
  | .testSizeText text refusal =>
    let reason := refusal.message
    s!"Invalid IRIS_TEST_SIZE '{text}': {reason}"
  | .testSizeRange size =>
    let text := Decimal.write size
    s!"IRIS_TEST_SIZE must be between 0 and 1, got {text}"
  | .seedText text refusal =>
    let reason := refusal.message
    s!"Invalid IRIS_SPLIT_SEED '{text}': {reason}"
  | .logFormat word => s!"Invalid LOG_FORMAT '{word}': expected pretty or json"
  | .noLabel => "DATASET_CSV is set but DATASET_LABEL_COLUMN is missing"
  | .other reason => reason

/-! ## Settings -/

/-- The form of the log. -/
inductive LogFormat
  | pretty
  | json
  deriving DecidableEq

/-- A file of delimited text with the name of its label column. -/
structure LabeledFile where
  path : String
  label : String
  deriving DecidableEq

/-- The settings of the program. -/
structure Settings where
  split : SplitConfig
  outputDirectory : String
  logFormat : LogFormat
  /-- The file that is read in place of the iris flowers. -/
  source : Option LabeledFile
  deriving DecidableEq

namespace Settings

def testSizeName : String := "IRIS_TEST_SIZE"

def seedName : String := "IRIS_SPLIT_SEED"

def outputName : String := "FACETS_OUTPUT_DIR"

def logName : String := "LOG_FORMAT"

def sourceName : String := "DATASET_CSV"

def labelName : String := "DATASET_LABEL_COLUMN"

/-- The names of the variables that are read. -/
def variableNames : List String :=
  [testSizeName, seedName, outputName, logName, sourceName, labelName]

/-- The directory for the output where none is set. -/
def defaultOutput : String := "target/facets"

/-- The fraction of test rows. -/
def readTestSize : Option String → Except SettingsDefect Double
  | none => .ok SplitConfig.default.testSize
  | some text => do
    let size ← (Decimal.read text).mapError (.testSizeText text)
    if size.isProperFraction then return size else .error (.testSizeRange size)

/-- The seed of the shuffle. -/
def readSeed : Option String → Except SettingsDefect UInt64
  | none => .ok SplitConfig.default.seed
  | some text => (Decimal.readWord text).mapError (.seedText text)

/-- The form of the log, which is named in letters of either case. -/
def readLogFormat : Option String → Except SettingsDefect LogFormat
  | none => .ok .pretty
  | some text =>
    match text.map Char.toLower with
    | "pretty" => .ok .pretty
    | "json" => .ok .json
    | word => .error (.logFormat word)

/-- The file that is read, which needs a label column. -/
def readSource (path label : Option String) : Except SettingsDefect (Option LabeledFile) :=
  match path, label with
  | none, _ => .ok none
  | some path, some label => .ok (some ⟨path, label⟩)
  | some _, none => .error .noLabel

/-- The settings that some variables make. -/
def ofLookup (get : String → Option String) : Except SettingsDefect Settings := do
  let testSize ← readTestSize (get testSizeName)
  let seed ← readSeed (get seedName)
  let logFormat ← readLogFormat (get logName)
  let source ← readSource (get sourceName) (get labelName)
  return {
    split := ⟨testSize, seed, true⟩
    outputDirectory := (get outputName).getD defaultOutput
    logFormat
    source }

end Settings

end Tableflow
