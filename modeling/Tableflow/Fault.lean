import Tableflow.Decimal.Layout
import Tableflow.Files.Fault
import Tableflow.RunId

/-!
# Faults

Everything that can go wrong, as causes: defects of a pipeline's definition, failures of a run,
queries without an answer, defects of data, and trouble with the outside. `Fault.message` is the
one place where they are put into words.

A step's body may fail with anything, so what it fails with is a `Trace`: a plain text, a fault, or
an error of a kind of its own that holds a further trace as its source, under any number of context
messages. `Trace.chain` lists the texts from the outermost context down through all sources, and
`Trace.fault?` finds the fault under the contexts, but none inside an error of another kind.
`Fault.ofTrace` is the fault that a trace amounts to.
-/

namespace Tableflow

/-! ## Causes -/

/-- What is wrong with a table, a series or the text of one. -/
inductive TableDefect
  | duplicateColumn (name : String)
  | columnLength (name : String) (rows expected : Nat)
  | seriesLength (name : String) (values expected : Nat)
  | positionOutOfRange (position rows : Nat)
  | noColumn (name : String)
  | emptyText
  | fieldCount (row fields header : Nat)
  | other (reason : String)
  deriving DecidableEq

def TableDefect.message : TableDefect → String
  | .duplicateColumn name => s!"duplicate column '{name}'"
  | .columnLength name rows expected => s!"column '{name}' has {rows} rows, expected {expected}"
  | .seriesLength name values expected =>
    s!"series '{name}' has {values} values, expected {expected}"
  | .positionOutOfRange position rows => s!"row position {position} out of range ({rows} rows)"
  | .noColumn name => s!"no column named '{name}'"
  | .emptyText => "CSV content is empty"
  | .fieldCount row fields header => s!"CSV row {row} has {fields} fields, header has {header}"
  | .other reason => reason

/-- Why a table cannot be split. -/
inductive SplitDefect
  | testSize (size : Double)
  | emptyPartition (size : Double) (rows train test : Nat)
  | lengths (features labels : Nat)
  | other (reason : String)
  deriving DecidableEq

def SplitDefect.message : SplitDefect → String
  | .testSize size =>
    let text := Decimal.write size
    s!"test_size must be in (0, 1), got {text}"
  | .emptyPartition size rows train test =>
    let text := Decimal.write size
    s!"test_size {text} on {rows} rows leaves an empty partition (train={train}, test={test})"
  | .lengths features labels => s!"features have {features} rows but labels have {labels}"
  | .other reason => reason

/-- What was asked of the history of runs. -/
inductive RunQuery
  | latest (pipeline : String)
  | id (run : RunId)
  | other (query : String)
  deriving DecidableEq

def RunQuery.message : RunQuery → String
  | .latest pipeline => s!"no runs recorded for pipeline '{pipeline}'"
  | .id run =>
    let text := run.text
    s!"run id {text}"
  | .other query => query

/-! ## Faults and traces -/

mutual

/-- What can go wrong. -/
inductive Fault
  | duplicateStep (pipeline step : String)
  | unknownStep (step : String)
  | unknownOutput (step output : String)
  | unknownInput (step input : String)
  | duplicateBinding (step input : String)
  | unresolvedInput (step input : String)
  | cyclicDependency (pipeline : String) (steps : List String)
  | stepFailed (run : RunId) (step : String) (source : Trace)
  | missingOutput (step output : String)
  | undeclaredOutput (step output : String)
  | typeMismatch (step artifact expected actual : String)
  | inputNotFound (step input : String)
  | pipelineNotFound (name : String)
  | runNotFound (query : RunQuery)
  | stepNotFound (run : RunId) (step : String)
  | outputNotFound (step output : String)
  | datasetUnavailable (source : String) (reason : FileFault)
  | invalidDataset (defect : TableDefect)
  | invalidSplit (defect : SplitDefect)
  | writeFailed (path : String) (reason : FileFault)
  | serialization (reason : String)
  | handlerError (source : Trace)
  | internal (reason : String)
  deriving DecidableEq

/-- What a step's body fails with. -/
inductive Trace
  | text (message : String)
  /-- An error of another kind, with what caused it. -/
  | foreign (message : String) (source : Trace)
  | fault (fault : Fault)
  | context (message : String) (inner : Trace)
  deriving DecidableEq

end

instance : Inhabited Fault := ⟨.internal ""⟩

/-! ## Wording -/

mutual

/-- The wording of a fault. -/
def Fault.message : Fault → String
  | .duplicateStep pipeline step =>
    s!"Step '{step}' is declared more than once in pipeline '{pipeline}'"
  | .unknownStep step => s!"Binding refers to unknown step '{step}'"
  | .unknownOutput step output => s!"Step '{step}' declares no output named '{output}'"
  | .unknownInput step input => s!"Step '{step}' declares no input named '{input}'"
  | .duplicateBinding step input => s!"Input '{input}' of step '{step}' is bound more than once"
  | .unresolvedInput step input =>
    s!"Input '{input}' of step '{step}' is not bound to any output or constant"
  | .cyclicDependency pipeline steps =>
    let list := ", ".intercalate steps
    s!"Pipeline '{pipeline}' has a dependency cycle between steps: {list}"
  | .stepFailed run step source =>
    let id := run.text
    let text := source.message
    s!"Step '{step}' failed in run {id}. Source: {text}"
  | .missingOutput step output =>
    s!"Step '{step}' did not produce its declared output '{output}'"
  | .undeclaredOutput step output =>
    s!"Step '{step}' produced output '{output}' which it does not declare"
  | .typeMismatch step artifact expected actual =>
    s!"Type mismatch reading '{artifact}' of step '{step}' (expected {expected}, found {actual})"
  | .inputNotFound step input => s!"Step '{step}' has no input named '{input}'"
  | .pipelineNotFound name => s!"No pipeline registered under the name '{name}'"
  | .runNotFound query =>
    let text := query.message
    s!"No run found: {text}"
  | .stepNotFound run step =>
    let id := run.text
    s!"Run {id} has no step named '{step}'"
  | .outputNotFound step output => s!"Step '{step}' has no output named '{output}'"
  | .datasetUnavailable source reason =>
    let text := reason.message
    s!"Dataset source '{source}' is unavailable: {text}"
  | .invalidDataset defect =>
    let text := defect.message
    s!"Invalid dataset: {text}"
  | .invalidSplit defect =>
    let text := defect.message
    s!"Invalid train/test split: {text}"
  | .writeFailed path reason =>
    let text := reason.message
    s!"Failed to write '{path}'. Source: {text}"
  | .serialization reason => s!"Serialization failed. Source: {reason}"
  | .handlerError source =>
    let text := source.message
    s!"Error in a step body or external operation. Source: {text}"
  | .internal reason => s!"Internal kiln error: {reason}"

/-- The outermost text of a trace. -/
def Trace.message : Trace → String
  | .text message | .foreign message _ | .context message _ => message
  | .fault f => f.message

end

mutual

/-- The texts of a fault's sources, the nearest first. -/
def Fault.sources : Fault → List String
  | .stepFailed _ _ source => source.chain
  | .handlerError source => source.chain
  | .writeFailed _ reason => [reason.message]
  | .serialization reason => [reason]
  | _ => []

/-- The texts of a trace from the outermost one down. -/
def Trace.chain : Trace → List String
  | .text message => [message]
  | .foreign message source => message :: source.chain
  | .fault f => f.message :: f.sources
  | .context message inner => message :: inner.chain

end

/-- All texts of a trace in one line. -/
def Trace.alternate (trace : Trace) : String := ": ".intercalate trace.chain

/-! ## Traces and faults -/

/-- The fault under the contexts of a trace, if there is one. The source of an error of another kind
is not looked into. -/
def Trace.fault? : Trace → Option Fault
  | .text _ | .foreign .. => none
  | .fault f => some f
  | .context _ inner => inner.fault?

/-- The fault that a trace amounts to: the one under its contexts, or a failure of a step's body
with the trace as its source. -/
def Fault.ofTrace (trace : Trace) : Fault := trace.fault?.getD (.handlerError trace)

/-- A trace under context messages, the first one being the innermost. -/
def Trace.withContexts (contexts : List String) (trace : Trace) : Trace :=
  contexts.foldl (fun inner message => .context message inner) trace

/-- The step that a fault is attributed to, if any. -/
def Fault.step? : Fault → Option String
  | .duplicateStep _ step | .unknownStep step | .unknownOutput step _ | .unknownInput step _
  | .duplicateBinding step _ | .unresolvedInput step _ | .stepFailed _ step _
  | .missingOutput step _ | .undeclaredOutput step _ | .typeMismatch step _ _ _
  | .inputNotFound step _ | .stepNotFound _ step | .outputNotFound step _ => some step
  | _ => none

end Tableflow
