import Mathlib
import Tableflow.Proofs.Execution.Shape
import Tableflow.Proofs.Json.Values
import Tableflow.Proofs.Registry.Queries
import Tableflow.Proofs.RunId

/-!
# The exported history

The summaries of the runs of a pipeline are one JSON text, which is parsed as an array with a
document for each run, in the order of the runs (`Registry.exportSummaries_parses`). What a document
tells of a run is `Run.Told`, down to the notes about its outputs (`StepRun.Told`, `Artifact.Told`).
That the text of a note is parsed as the note is assumed of the notes that are exported, since the
reader of numbers is a parameter; everything around them is read back whatever the names and the
notes contain.

The runs themselves are ones of registered pipelines (`Pipeline.Recorded`), and every request keeps
this (`Keeps.serve`). The main statement is `Registry.export_faithful`.
-/

namespace Tableflow

open Json (Value Reals Parses)
open List (Forall₂)

variable {reals : Reals}

/-- If everything in a list has a counterpart, the list has one. -/
theorem exists_forall₂ {α β : Type} {R : α → β → Prop} {as : List α} (h : ∀ a ∈ as, ∃ b, R a b) :
    ∃ bs, Forall₂ R as bs := by
  induction as with
  | nil => exact ⟨[], .nil⟩
  | cons a rest ih =>
    obtain ⟨⟨b, hb⟩, hrest⟩ := List.forall_mem_cons.1 h
    obtain ⟨bs, hbs⟩ := ih hrest
    exact ⟨b :: bs, .cons hb hbs⟩

/-! ## Documents -/

namespace Artifact

/-- The notes about an artifact. -/
def notes (a : Artifact) : List Value := a.metadata.entries.map (·.2)

/-- A document tells the kind of an artifact and all notes about it. -/
structure Told (a : Artifact) (doc : Value) : Prop where
  typeName : doc.member? "type_name" = some (.string a.kind.typeName)
  metadata : doc.member? "metadata" = some (.object a.metadata.entries)

theorem exists_told {a : Artifact} (h : ∀ note ∈ a.notes, Parses reals note.pretty note) :
    ∃ doc, a.summary.ReadsAs reals doc ∧ a.Told doc := by
  have hnotes : (Value.object a.metadata.entries).ReadsAs reals (.object a.metadata.entries) := by
    refine .sorted a.metadata.ascending (List.forall₂_same.2 fun entry hentry => ⟨rfl, ?_⟩)
    exact Json.parses_pretty_iff.1 (h entry.2 (List.mem_map_of_mem hentry))
  have hfields : Value.MembersReadAs reals
      [("type_name", .string a.kind.typeName), ("metadata", .object a.metadata.entries)]
      [("type_name", .string a.kind.typeName), ("metadata", .object a.metadata.entries)] := by
    simp [Value.MembersReadAs, Value.readsAs_string, hnotes]
  obtain ⟨doc, hread, hdoc⟩ := Value.ReadsAs.exists_record (by simp) hfields
  exact ⟨doc, hread, (hdoc _ _).2 (by simp), (hdoc _ _).2 (by simp)⟩

end Artifact

theorem Instant.readsAs_toJson (t : Instant) : t.toJson.ReadsAs reals t.toJson :=
  Value.readsAs_string _

theorem readsAs_optional {α : Type} {f : α → Value} {value : Option α} {doc : α → Value}
    (h : ∀ a ∈ value, (f a).ReadsAs reals (doc a)) :
    (Value.optional f value).ReadsAs reals (.optional doc value) := by
  cases value with
  | none => exact Value.readsAs_null
  | some a => exact h a rfl

namespace StepRun

/-- The notes about the outputs of a step. -/
def notes (s : StepRun) : List Value := s.outputs.entries.flatMap fun output => output.2.notes

/-- A document tells how a step went and everything about its outputs except their values. -/
structure Told (s : StepRun) (doc : Value) : Prop where
  name : doc.member? "name" = some (.string s.name)
  status : doc.member? "status" = some (.string s.result.word)
  started : doc.member? "started_at" = some (.optional Instant.toJson s.result.started?)
  finished : doc.member? "finished_at" = some (.optional Instant.toJson s.result.finished?)
  /-- The outputs are told one by one under their names, and nothing else is. -/
  outputs : ∃ members, doc.member? "outputs" = some (.object members) ∧
    Forall₂ (fun output member => member.1 = output.1 ∧ output.2.Told member.2)
      s.outputs.entries members
  blank : ¬ s.Completed → doc.member? "outputs" = some (.object [])

theorem exists_toldOutputs {s : StepRun} (h : ∀ note ∈ s.notes, Parses reals note.pretty note) :
    ∃ members, (Value.object (s.outputs.map Artifact.summary).entries).ReadsAs reals
        (.object members) ∧
      Forall₂ (fun output member => member.1 = output.1 ∧ output.2.Told member.2)
        s.outputs.entries members := by
  have houtputs : ∀ output ∈ s.outputs.entries, ∃ member : String × Value,
      (output.1 = member.1 ∧ output.2.summary.ReadsAs reals member.2) ∧
        (member.1 = output.1 ∧ output.2.Told member.2) := by
    intro output houtput
    have hnotes : ∀ note ∈ output.2.notes, Parses reals note.pretty note :=
      fun note hnote => h note (List.mem_flatMap.2 ⟨output, houtput, hnote⟩)
    obtain ⟨doc, hread, htold⟩ := Artifact.exists_told hnotes
    exact ⟨(output.1, doc), ⟨rfl, hread⟩, rfl, htold⟩
  obtain ⟨members, hmembers⟩ := exists_forall₂ houtputs
  refine ⟨members, .sorted (s.outputs.map Artifact.summary).ascending ?_,
    hmembers.imp fun _ _ hm => hm.2⟩
  exact List.forall₂_map_left_iff.2 (hmembers.imp fun _ _ hm => hm.1)

/-- Only a completed step has outputs. -/
theorem outputs_of_not_completed {s : StepRun} (h : ¬ s.Completed) : s.outputs = .empty := by
  obtain ⟨name, started | _ | _⟩ := s
  · exact absurd ⟨_, _, _, rfl⟩ h
  · rfl
  · rfl

theorem exists_told {s : StepRun} (h : ∀ note ∈ s.notes, Parses reals note.pretty note) :
    ∃ doc, s.summary.ReadsAs reals doc ∧ s.Told doc := by
  obtain ⟨members, hmembers, houtputs⟩ := exists_toldOutputs h
  have htime (time : Option Instant) : (Value.optional Instant.toJson time).ReadsAs reals
      (.optional Instant.toJson time) := readsAs_optional fun t _ => t.readsAs_toJson
  have hfields : Value.MembersReadAs reals
      [("name", .string s.name), ("status", .string s.result.word),
        ("started_at", .optional Instant.toJson s.result.started?),
        ("finished_at", .optional Instant.toJson s.result.finished?),
        ("outputs", .object (s.outputs.map Artifact.summary).entries)]
      [("name", .string s.name), ("status", .string s.result.word),
        ("started_at", .optional Instant.toJson s.result.started?),
        ("finished_at", .optional Instant.toJson s.result.finished?),
        ("outputs", .object members)] := by
    simp [Value.MembersReadAs, Value.readsAs_string, htime, hmembers]
  obtain ⟨doc, hread, hdoc⟩ := Value.ReadsAs.exists_record (by simp) hfields
  refine ⟨doc, hread, ?_⟩
  constructor
  case outputs => exact ⟨members, (hdoc _ _).2 (by simp), houtputs⟩
  case blank =>
    intro hblank
    rw [outputs_of_not_completed hblank] at houtputs
    cases houtputs
    exact (hdoc _ _).2 (by simp)
  all_goals exact (hdoc _ _).2 (by simp)

end StepRun

namespace StepFailure

/-- A document tells where a run failed and why. -/
structure Told (f : StepFailure) (doc : Value) : Prop where
  step : doc.member? "step_name" = some (.string f.step)
  message : doc.member? "message" = some (.string f.message)

theorem exists_told (f : StepFailure) : ∃ doc, f.toJson.ReadsAs reals doc ∧ f.Told doc := by
  have hfields : Value.MembersReadAs reals
      [("step_name", .string f.step), ("message", .string f.message)]
      [("step_name", .string f.step), ("message", .string f.message)] := by
    simp [Value.MembersReadAs, Value.readsAs_string]
  obtain ⟨doc, hread, hdoc⟩ := Value.ReadsAs.exists_record (by simp) hfields
  exact ⟨doc, hread, (hdoc _ _).2 (by simp), (hdoc _ _).2 (by simp)⟩

end StepFailure

namespace Run

/-- The notes about the outputs of a run. -/
def notes (r : Run) : List Value := r.steps.flatMap StepRun.notes

/-- A document tells how a run went, step by step. -/
structure Told (r : Run) (doc : Value) : Prop where
  id : ∃ text, doc.member? "id" = some (.string text) ∧ RunId.ofText? text = some r.id
  pipeline : doc.member? "pipeline" = some (.string r.pipeline)
  status : doc.member? "status" = some (.string r.status.word)
  started : doc.member? "started_at" = some r.started.toJson
  finished : doc.member? "finished_at" = some r.finished.toJson
  noFailure : doc.member? "failure" = some .null ↔ r.status = .completed
  failure : ∀ f, r.failure = some f → ∃ told, doc.member? "failure" = some told ∧ f.Told told
  steps : ∃ docs, doc.member? "steps" = some (.array docs) ∧ Forall₂ StepRun.Told r.steps docs

/-- The failure of a run is told if there is one. -/
theorem exists_toldFailure (reals : Reals) (r : Run) : ∃ doc,
    (Value.optional StepFailure.toJson r.failure).ReadsAs reals doc ∧
      (doc = .null ↔ r.status = .completed) ∧ ∀ f, r.failure = some f → f.Told doc := by
  rw [status]
  cases r.failure with
  | none =>
    refine ⟨.null, Value.readsAs_null, by simp, ?_⟩
    rintro f ⟨⟩
  | some f =>
    obtain ⟨doc, hread, htold⟩ := f.exists_told
    have hdoc : doc ≠ .null := by
      rintro rfl
      cases htold.step
    refine ⟨doc, hread, by simp [hdoc], ?_⟩
    rintro _ ⟨⟩
    exact htold

theorem exists_told {r : Run} (h : ∀ note ∈ r.notes, Parses reals note.pretty note) :
    ∃ doc, r.summary.ReadsAs reals doc ∧ r.Told doc := by
  have hsteps : ∀ s ∈ r.steps, ∃ doc, s.summary.ReadsAs reals doc ∧ s.Told doc := fun s hs =>
    StepRun.exists_told fun note hnote => h note (List.mem_flatMap.2 ⟨s, hs, hnote⟩)
  obtain ⟨docs, hdocs⟩ := exists_forall₂ hsteps
  have hlist : (Value.array (r.steps.map StepRun.summary)).ReadsAs reals (.array docs) :=
    .array (List.forall₂_map_left_iff.2 (hdocs.imp fun _ _ hdoc => hdoc.1))
  obtain ⟨failure, hfailure, hnull, htold⟩ := exists_toldFailure reals r
  have hfields : Value.MembersReadAs reals
      [("id", .string r.id.text), ("pipeline", .string r.pipeline),
        ("status", .string r.status.word), ("started_at", r.started.toJson),
        ("finished_at", r.finished.toJson), ("failure", .optional StepFailure.toJson r.failure),
        ("steps", .array (r.steps.map StepRun.summary))]
      [("id", .string r.id.text), ("pipeline", .string r.pipeline),
        ("status", .string r.status.word), ("started_at", r.started.toJson),
        ("finished_at", r.finished.toJson), ("failure", failure), ("steps", .array docs)] := by
    simp [Value.MembersReadAs, Value.readsAs_string, Instant.readsAs_toJson, hfailure, hlist]
  obtain ⟨doc, hread, hdoc⟩ := Value.ReadsAs.exists_record (by simp) hfields
  have hfailure : doc.member? "failure" = some failure := (hdoc _ _).2 (by simp)
  refine ⟨doc, hread, ?_⟩
  constructor
  case id => exact ⟨r.id.text, (hdoc _ _).2 (by simp), r.id.ofText?_text⟩
  case noFailure => rw [hfailure, Option.some.injEq, hnull]
  case failure => exact fun f hf => ⟨failure, hfailure, htold f hf⟩
  case steps => exact ⟨docs, (hdoc _ _).2 (by simp), hdocs.imp fun _ _ hdoc => hdoc.2⟩
  all_goals exact (hdoc _ _).2 (by simp)

end Run

namespace Registry

variable {m : Type → Type}

/-- The export of a pipeline's runs is parsed as a document for each, in their order. -/
theorem exportSummaries_parses (r : Registry m) (name : String)
    (h : ∀ run ∈ r.runs name, ∀ note ∈ run.notes, Parses reals note.pretty note) :
    ∃ docs, (∀ v, Parses reals (r.exportSummaries name) v ↔ v = .array docs) ∧
      Forall₂ Run.Told (r.runs name) docs := by
  obtain ⟨docs, hdocs⟩ := exists_forall₂ fun run hrun => Run.exists_told (h run hrun)
  have hread : (Value.array ((r.runs name).map Run.summary)).ReadsAs reals (.array docs) :=
    .array (List.forall₂_map_left_iff.2 (hdocs.imp fun _ _ hdoc => hdoc.1))
  exact ⟨docs, fun v => hread.parses_iff, hdocs.imp fun _ _ hdoc => hdoc.2⟩

end Registry

/-! ## Runs of registered pipelines -/

variable {m : Type → Type}

/-- A run is one of a pipeline: it has the steps of the pipeline in their order, and if it failed
then at the one step that failed. -/
structure Pipeline.Recorded (p : Pipeline m) (r : Run) : Prop where
  name : r.pipeline = p.name
  steps : r.steps.map StepRun.name = p.stepNames
  completed : r.status = .completed → ∀ s ∈ r.steps, s.Completed
  failed : ∀ f, r.failure = some f → ∃ failed : StepRun, f.step = failed.name ∧
    ∀ s, s ∈ r.steps ∧ s.Failed ↔ s = failed

theorem Course.recorded {p : Pipeline m} {t : Transcript} {calls : List Call}
    (h : Course p.steps t calls) (id : RunId) (started finished : Instant) :
    p.Recorded (t.outcome id p.name started finished).run where
  name := rfl
  steps := h.names
  completed := by
    intro hstatus
    refine h.completed ?_
    rw [Run.status, Transcript.outcome] at hstatus
    cases hbreakdown : t.breakdown with
    | none => rfl
    | some b => simp [hbreakdown] at hstatus
  failed := by
    intro f hf
    obtain ⟨b, hb, rfl⟩ := Option.map_eq_some_iff.1 hf
    obtain ⟨front, failed, back, hstopped, hname⟩ := h.stopped hb
    exact ⟨failed, hname.symm, fun s => hstopped.failed_iff⟩

namespace Registry

/-- Whatever is registered came with one of some requests, of which some are still to come, and
whatever is in the history is a run of such a pipeline. -/
structure Keeps (requests : List (Request m)) (r : Registry m) (pending : List (Request m)) :
    Prop where
  pending : ∀ request ∈ pending, request ∈ requests
  pipelines : ∀ name p, r.pipelines.find? name = some p → Request.register p ∈ requests
  history : ∀ run ∈ r.history, ∃ p, Request.register p ∈ requests ∧ p.Recorded run

variable {r : Registry m} {requests rest : List (Request m)}

theorem Keeps.register {p : Pipeline m} (h : Keeps requests r (.register p :: rest)) :
    Keeps requests (r.register p) rest where
  pending := (List.forall_mem_cons.1 h.pending).2
  pipelines name q hq := by
    rw [Registry.register, Dictionary.find?_insert] at hq
    split at hq
    · obtain rfl := Option.some.inj hq
      exact h.pending _ List.mem_cons_self
    · exact h.pipelines name q hq
  history := h.history

theorem Keeps.record {request : Request m} (h : Keeps requests r (request :: rest)) (name : String)
    {run : Run} {p : Pipeline m} (hp : Request.register p ∈ requests) (hrun : p.Recorded run) :
    Keeps requests (r.record name run) rest where
  pending := (List.forall_mem_cons.1 h.pending).2
  pipelines := by
    rw [pipelines_record]
    exact h.pipelines
  history other hother := by
    rcases List.mem_append.1 ((r.history_record_sublist name run).subset hother) with hold | hnew
    · exact h.history other hold
    · rw [List.mem_singleton.1 hnew]
      exact ⟨p, hp, hrun⟩

theorem Keeps.clear {name : String} (h : Keeps requests r (.clear name :: rest)) :
    Keeps requests (r.clearRuns name).1 rest where
  pending := (List.forall_mem_cons.1 h.pending).2
  pipelines := h.pipelines
  history run hrun := h.history run (List.mem_of_mem_filter hrun)

variable [Monad m] [LawfulMonad m]

theorem Keeps.serve {request : Request m} (h : Keeps requests r (request :: rest))
    (now : m Instant) :
    SatisfiesM (fun served => Keeps requests served.2 rest) (serve now r request) := by
  cases request with
  | register p => exact .pure h.register
  | clear name => exact .pure h.clear
  | run name id =>
    rw [Registry.serve]
    cases hp : r.pipeline name with
    | error fault =>
      rw [run_of_missing hp, pure_bind]
      exact .pure ⟨(List.forall_mem_cons.1 h.pending).2, h.pipelines, h.history⟩
    | ok p =>
      have hregistered := h.pipelines name p (pipeline_eq_ok_iff.1 hp)
      rw [run_of_pipeline hp, bind_map_left]
      refine (p.satisfiesM_execute id now (answers_true p.steps)).bind ?_
      rintro _ ⟨t, calls, started, finished, hcourse, -, rfl⟩
      exact .pure (h.record name hregistered (hcourse.recorded id started finished))

theorem satisfiesM_serveAll_keeps (now : m Instant) (retention : Option Nat)
    (requests : List (Request m)) :
    SatisfiesM (fun served => Keeps requests served.2 [])
      (serveAll (serve now) (opened retention) requests) := by
  refine satisfiesM_serveAll_pending (P := Keeps requests)
    (fun r request rest h => h.serve now) ⟨fun _ h => h, ?_, ?_⟩
  · intro name p hp
    cases retention <;> cases hp
  · intro run hrun
    cases retention <;> cases hrun

/-- In every registry that some requests lead to, whatever name is asked for, the export is parsed
as a document for each run under the name, most recent first, which tells the run as it is: of a
pipeline that was registered, with the steps of the pipeline in their order. -/
theorem export_faithful (reals : Reals) (now : m Instant) (retention : Option Nat)
    (requests : List (Request m)) :
    SatisfiesM (fun served => ∀ name,
        (∀ run ∈ served.2.runs name, ∀ note ∈ run.notes, Parses reals note.pretty note) →
        ∃ docs, (∀ v, Parses reals (served.2.exportSummaries name) v ↔ v = .array docs) ∧
          Forall₂ (fun run doc => (run.pipeline = name ∧
            ∃ p, Request.register p ∈ requests ∧ p.Recorded run) ∧ run.Told doc)
            (served.2.runs name) docs)
      (serveAll (serve now) (opened retention) requests) := by
  refine (satisfiesM_serveAll_keeps now retention requests).imp ?_
  rintro ⟨replies, r⟩ h name hnotes
  obtain ⟨docs, hparses, htold⟩ := r.exportSummaries_parses name hnotes
  refine ⟨docs, hparses, (List.forall₂_and_left _ _).2 ⟨fun run hrun => ?_, htold⟩⟩
  obtain ⟨hmem, hname⟩ := List.mem_filter.1 hrun
  exact ⟨of_decide_eq_true hname, h.history run (List.mem_reverse.1 hmem)⟩

/-- A note with names and texts that must be escaped, and a number. -/
def quotedNote : Value :=
  .object [("", .array [.null, .bool true, .integer (-3), .string "\"\\"]),
    ("é\n", .real ⟨0x3fe0000000000000⟩)]

/-- A step with a note about its output, and a step that fails. -/
def notedPipeline : Pipeline Id where
  name := "noted \"1\""
  steps :=
    [⟨"source\t", ⟨⟨[], ["out"]⟩, fun _ => .ok (.ofList
        [("out", (Artifact.of .int64 7).withMetadata "a\\b" quotedNote)])⟩, .empty⟩,
      ⟨"sink", ⟨⟨[], []⟩, fun _ => .error (.text "overflow")⟩, .empty⟩]

/-- A run that failed is exported with the note about the step that completed, and nothing is
exported under another name. -/
theorem noted_export :
    let served := (serveAll (serve (pure ⟨0⟩)) (opened none)
      [.register notedPipeline, .run notedPipeline.name ⟨5⟩]).run.2
    (∃ doc, Parses Json.exactReal (served.exportSummaries notedPipeline.name) (.array [doc]) ∧
      doc.member? "pipeline" = some (.string "noted \"1\"") ∧
      ∃ failure, doc.member? "failure" = some failure ∧
        failure.member? "step_name" = some (.string "sink")) ∧
      Parses Json.exactReal (served.exportSummaries "other") (.array []) := by
  intro served
  have hquoted : Parses Json.exactReal quotedNote.pretty quotedNote :=
    Json.parses_pretty_iff.2 ⟨3, by with_unfolding_all rfl⟩
  have hnotes : (served.runs notedPipeline.name).flatMap Run.notes = [quotedNote] := by rfl
  have hfailures : (served.runs notedPipeline.name).map Run.failure =
      [some ⟨"sink", "overflow"⟩] := by decide +kernel
  have hother : served.runs "other" = [] := by rfl
  have hexport := export_faithful Json.exactReal (pure ⟨0⟩) none
    [.register notedPipeline, .run notedPipeline.name ⟨5⟩]
  rw [SatisfiesM_Id_eq] at hexport
  constructor
  · obtain ⟨docs, hparses, hdocs⟩ := hexport notedPipeline.name fun run hrun note hnote => by
      have hmem : note ∈ (served.runs notedPipeline.name).flatMap Run.notes :=
        List.mem_flatMap.2 ⟨run, hrun, hnote⟩
      rw [hnotes, List.mem_singleton] at hmem
      rwa [hmem]
    obtain ⟨run, hruns, hfailure⟩ := List.map_eq_singleton_iff.1 hfailures
    change Forall₂ _ (served.runs notedPipeline.name) docs at hdocs
    rw [hruns] at hdocs
    obtain _ | @⟨_, doc, _, _, ⟨⟨hname, -⟩, htold⟩, ⟨⟩⟩ := hdocs
    obtain ⟨failure, hfailure, hblamed⟩ := htold.failure _ hfailure
    have hpipeline := htold.pipeline
    rw [hname] at hpipeline
    exact ⟨doc, (hparses _).2 rfl, hpipeline, failure, hfailure, hblamed.step⟩
  · obtain ⟨docs, hparses, hdocs⟩ := hexport "other" fun run hrun => by
      change run ∈ served.runs "other" at hrun
      rw [hother] at hrun
      cases hrun
    change Forall₂ _ (served.runs "other") docs at hdocs
    rw [hother] at hdocs
    cases hdocs
    exact (hparses _).2 rfl

end Registry

end Tableflow
