import Tableflow.Pipeline.Run

/-!
# Runs as JSON

The summary of a run tells everything about it except the values of its artifacts, of which it
gives the kinds and the notes.
-/

namespace Tableflow

open Json (Value)

namespace Artifact

/-- The kind of an artifact and the notes about it. -/
def summary (a : Artifact) : Value :=
  .object [("type_name", .string a.kind.typeName), ("metadata", .object a.metadata.entries)]

end Artifact

namespace Instant

def toJson (t : Instant) : Value := .string t.text

end Instant

namespace StepRun

/-- What is told about a step. -/
def summary (s : StepRun) : Value :=
  .object
    [("name", .string s.name), ("status", .string s.result.word),
      ("started_at", .optional Instant.toJson s.result.started?),
      ("finished_at", .optional Instant.toJson s.result.finished?),
      ("outputs", .object (s.outputs.map Artifact.summary).entries)]

end StepRun

namespace StepFailure

def toJson (f : StepFailure) : Value :=
  .object [("step_name", .string f.step), ("message", .string f.message)]

end StepFailure

namespace Run

/-- What is told about a run. -/
def summary (r : Run) : Value :=
  .object
    [("id", .string r.id.text), ("pipeline", .string r.pipeline),
      ("status", .string r.status.word), ("started_at", r.started.toJson),
      ("finished_at", r.finished.toJson), ("failure", .optional StepFailure.toJson r.failure),
      ("steps", .array (r.steps.map StepRun.summary))]

end Run

end Tableflow
