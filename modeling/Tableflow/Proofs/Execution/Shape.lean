import Mathlib
import Tableflow.Proofs.Execution.DataFlow

/-!
# The shape of runs

The record of an execution lists the steps of the pipeline in their order, each with its declared
outputs if it completed and without any otherwise (`StepRun.Records`). Either all steps completed,
or the run stopped at one that failed: those before it completed and those behind it were not run
(`Stopped`). Whether a run failed can be asked of its record, of its failure and of the outcome, and
the answers agree (`Blueprint.Shape`).
-/

namespace Tableflow

variable {m : Type → Type}

/-! ## Records -/

namespace StepRun

/-- A step that ran and failed. -/
def Failed (r : StepRun) : Prop := ∃ started finished, r.result = .failed started finished

/-- A step that was not run. -/
def NotRun (r : StepRun) : Prop := r.result = .notRun

/-- A step that ran, to whatever result. -/
def Ran (r : StepRun) : Prop := r.Completed ∨ r.Failed

/-- A record is one of a step: under its name, with its declared outputs if it completed and none
otherwise, and with times if it ran. -/
structure Records (r : StepRun) (s : BoundStep m) : Prop where
  named : r.name = s.name
  declared : r.Completed → s.Declares r.outputs
  blank : ¬ r.Completed → r.outputs = .empty
  started : r.result.started?.isSome ↔ r.Ran
  finished : r.result.finished?.isSome ↔ r.Ran

variable {s : BoundStep m}

theorem records_ofExcept {result : Except Trace Outputs}
    (h : ∀ outputs, result = .ok outputs → s.Declares outputs) (started finished : Instant) :
    Records ⟨s.name, .ofExcept started finished result⟩ s := by
  cases result with
  | ok outputs =>
    have hcompleted : (⟨s.name, .completed started finished outputs⟩ : StepRun).Completed :=
      ⟨_, _, _, rfl⟩
    exact ⟨rfl, fun _ => h outputs rfl, fun hnot => absurd hcompleted hnot,
      iff_of_true rfl (.inl hcompleted), iff_of_true rfl (.inl hcompleted)⟩
  | error trace =>
    have hfailed : (⟨s.name, .failed started finished⟩ : StepRun).Failed := ⟨_, _, rfl⟩
    refine ⟨rfl, ?_, fun _ => rfl, iff_of_true rfl (.inr hfailed), iff_of_true rfl (.inr hfailed)⟩
    rintro ⟨_, _, _, hcompleted⟩
    cases hcompleted

theorem not_ran_of_notRun {r : StepRun} (h : r.NotRun) : ¬ r.Ran := by
  rintro (⟨_, _, _, hran⟩ | ⟨_, _, hran⟩)
  · rw [h] at hran
    cases hran
  · rw [h] at hran
    cases hran

theorem records_notRun (s : BoundStep m) : Records ⟨s.name, .notRun⟩ s := by
  have hran : ¬ (⟨s.name, .notRun⟩ : StepRun).Ran := not_ran_of_notRun rfl
  exact ⟨rfl, fun h => absurd (.inl h) hran, fun _ => rfl, iff_of_false Bool.false_ne_true hran,
    iff_of_false Bool.false_ne_true hran⟩

theorem not_failed_of_completed {r : StepRun} (h : r.Completed) : ¬ r.Failed := by
  obtain ⟨_, _, _, hcompleted⟩ := h
  rintro ⟨_, _, hfailed⟩
  rw [hcompleted] at hfailed
  cases hfailed

end StepRun

theorem BoundStep.declares_of_conclude {s : BoundStep m} {result : Except Trace Outputs}
    {outputs : Outputs} (h : s.conclude result = .ok outputs) : s.Declares outputs := by
  rcases s.conclude_cases result with ⟨outputs', -, hconclude, hdeclares⟩ | ⟨trace, hconclude, -⟩
  · rw [h] at hconclude
    obtain rfl := Except.ok.inj hconclude
    exact hdeclares
  · rw [h] at hconclude
    cases hconclude

/-! ## Courses -/

/-- The steps of a run that stopped at one that failed: those before it completed and those behind
it were not run. -/
structure Stopped (steps front : List StepRun) (failed : StepRun) (back : List StepRun) : Prop where
  split : steps = front ++ failed :: back
  completed : ∀ r ∈ front, r.Completed
  failed : failed.Failed
  notRun : ∀ r ∈ back, r.NotRun

/-- A run stops at the only step that failed. -/
theorem Stopped.failed_iff {steps front back : List StepRun} {failed r : StepRun}
    (h : Stopped steps front failed back) : r ∈ steps ∧ r.Failed ↔ r = failed := by
  rw [h.split, List.mem_append, List.mem_cons]
  constructor
  · rintro ⟨hr | rfl | hr, hfailed⟩
    · exact absurd hfailed (StepRun.not_failed_of_completed (h.completed r hr))
    · rfl
    · exact absurd (.inr hfailed) (StepRun.not_ran_of_notRun (h.notRun r hr))
  · rintro rfl
    exact ⟨.inr (.inl rfl), h.failed⟩

namespace Course

variable {done : List (BoundStep m)} {t : Transcript} {calls : List Call}

theorem records (h : Course done t calls) : List.Forall₂ StepRun.Records t.steps done := by
  induction h with
  | start => exact .nil
  | called result started finished _ _ _ ih =>
    rw [Transcript.steps_record]
    refine List.rel_append ih (.cons (StepRun.records_ofExcept ?_ _ _) .nil)
    exact fun outputs houtputs => BoundStep.declares_of_conclude houtputs
  | refused started finished _ _ _ ih =>
    rw [Transcript.steps_record]
    exact List.rel_append ih (.cons (StepRun.records_ofExcept (fun _ h => by cases h) _ _) .nil)
  | skipped _ _ ih => exact List.rel_append ih (.cons (StepRun.records_notRun _) .nil)

/-- As long as nothing has failed, all steps have completed. -/
theorem completed (h : Course done t calls) (hintact : t.breakdown = none) :
    ∀ r ∈ t.steps, r.Completed := by
  induction h with
  | start => exact fun r hr => nomatch hr
  | @called done t calls s inputs result started finished _ intact _ ih =>
    intro r hr
    rw [Transcript.steps_record, List.mem_append, List.mem_singleton] at hr
    rcases hr with hr | rfl
    · exact ih intact r hr
    · cases hconclude : s.conclude result with
      | ok outputs => exact ⟨_, _, _, rfl⟩
      | error trace =>
        rw [hconclude] at hintact
        cases hintact
  | refused => cases hintact
  | skipped _ broken =>
    rw [Transcript.skip, broken] at hintact
    cases hintact

/-- A failure behind steps that completed stops the run. -/
theorem stopped_record (h : ∀ r ∈ t.steps, r.Completed) (name : String)
    (started finished : Instant) (trace : Trace) :
    Stopped (t.record name started finished (.error trace)).steps t.steps
      ⟨name, .failed started finished⟩ [] :=
  ⟨rfl, h, ⟨_, _, rfl⟩, fun _ hr => nomatch hr⟩

/-- A failure has stopped the run at the step that it is blamed on. -/
theorem stopped (h : Course done t calls) {b : Breakdown} (hbroken : t.breakdown = some b) :
    ∃ front failed back, Stopped t.steps front failed back ∧ failed.name = b.step := by
  induction h with
  | start => cases hbroken
  | @called done t calls s inputs result started finished before intact _ _ =>
    cases hconclude : s.conclude result with
    | ok outputs =>
      rw [hconclude, Transcript.record, intact] at hbroken
      cases hbroken
    | error trace =>
      rw [hconclude] at hbroken
      obtain rfl := Option.some.inj hbroken
      exact ⟨_, _, _, stopped_record (before.completed intact) .., rfl⟩
  | refused started finished before intact _ _ =>
    obtain rfl := Option.some.inj hbroken
    exact ⟨_, _, _, stopped_record (before.completed intact) .., rfl⟩
  | @skipped done t calls s _ _ _ ih =>
    obtain ⟨front, failed, back, hstopped, hname⟩ := ih hbroken
    refine ⟨front, failed, back ++ [⟨s.name, .notRun⟩],
      ⟨?_, hstopped.completed, hstopped.failed, ?_⟩, hname⟩
    · rw [Transcript.skip, hstopped.split, List.append_assoc, List.cons_append]
    · intro r hr
      rcases List.mem_append.1 hr with hr | hr
      · exact hstopped.notRun r hr
      · rw [List.mem_singleton.1 hr]
        rfl

end Course

/-! ## Executions of built pipelines -/

namespace Blueprint

variable {b : Blueprint m} {p : Pipeline m} {done : List (BoundStep m)} {t : Transcript}
  {calls : List Call}

/-- In a run without a failure every body has been called. -/
theorem Flow.calls_of_intact (h : b.Flow done t calls) (hintact : t.breakdown = none) :
    calls.map Call.step = done.map BoundStep.name :=
  h.order.eq_of_length (by rw [List.length_map, List.length_map, h.intact hintact])

/-- In a run that stopped, exactly the bodies up to the one that failed have been called. -/
theorem Flow.calls_of_stopped (h : b.Flow done t calls) {breakdown : Breakdown}
    (hbroken : t.breakdown = some breakdown) (hnames : (done.map BoundStep.name).Nodup)
    (hrecorded : t.steps.map StepRun.name = done.map BoundStep.name)
    {front back : List StepRun} {failed : StepRun} (hstopped : Stopped t.steps front failed back)
    (hname : failed.name = breakdown.step) :
    calls.map Call.step = (front ++ [failed]).map StepRun.name := by
  obtain ⟨s, -, before, call, rfl, hcall, hs, -, -⟩ := h.broken breakdown hbroken
  have hstep : call.step = failed.name := hcall.trans (hs.symm.trans hname.symm)
  obtain ⟨rest, hrest⟩ := h.order
  rw [List.map_append, List.map_singleton, hstep, List.append_assoc, List.singleton_append] at hrest
  rw [hstopped.split, List.map_append, List.map_cons] at hrecorded
  -- the failed step stands once among the names, so what is in front of it is told by them
  rw [← hrest] at hnames
  obtain ⟨-, hcons, hdisjoint⟩ := List.nodup_append.1 hnames
  have hfront : failed.name ∉ before.map Call.step := fun hmem =>
    hdisjoint _ hmem _ List.mem_cons_self rfl
  obtain ⟨hbefore, -⟩ := (List.append_cons_inj_of_notMem hfront (List.nodup_cons.1 hcons).1).1
    (hrest.trans hrecorded.symm)
  rw [List.map_append, List.map_append, hbefore, List.map_singleton, List.map_singleton, hstep]

/-- What the record, the calls and the outcome of an execution look like. -/
structure Shape (p : Pipeline m) (o : Outcome) (calls : List Call) : Prop where
  recorded : List.Forall₂ StepRun.Records o.run.steps p.steps
  course : ((∀ r ∈ o.run.steps, r.Completed) ∧ calls.map Call.step = p.stepNames) ∨
    ∃ front failed back, Stopped o.run.steps front failed back ∧
      calls.map Call.step = (front ++ [failed]).map StepRun.name
  verdicts : [o.run.status = .failed, ∃ r ∈ o.run.steps, r.Failed, ∃ f, o.run.failure = some f,
    ∃ fault, o.error = some fault, ∃ fault, o.toExcept = .error fault].TFAE
  reported : ∀ fault, o.error = some fault → ∃ failed trace,
    (∀ r, r ∈ o.run.steps ∧ r.Failed ↔ r = failed) ∧
      fault = .stepFailed o.run.id failed.name trace ∧
      o.run.failure = some ⟨failed.name, trace.alternate⟩

theorem Flow.shape (h : b.Flow p.steps t calls) (hcourse : Course p.steps t calls)
    (hnames : p.stepNames.Nodup) (id : RunId) (started finished : Instant) :
    Shape p (t.outcome id p.name started finished) calls := by
  refine ⟨hcourse.records, ?_, ?_, fun fault hfault => ?_⟩
  · cases hbreakdown : t.breakdown with
    | none => exact .inl ⟨hcourse.completed hbreakdown, h.calls_of_intact hbreakdown⟩
    | some breakdown =>
      obtain ⟨front, failed, back, hstopped, hname⟩ := hcourse.stopped hbreakdown
      exact .inr ⟨front, failed, back, hstopped,
        h.calls_of_stopped hbreakdown hnames hcourse.names hstopped hname⟩
  · refine List.tfae_of_forall (t.breakdown.isSome = true) _ fun verdict hverdict => ?_
    cases hbreakdown : t.breakdown with
    | none =>
      have hnone : ¬ ∃ r ∈ t.steps, r.Failed := fun ⟨r, hr, hfailed⟩ =>
        StepRun.not_failed_of_completed (hcourse.completed hbreakdown r hr) hfailed
      simp only [List.mem_cons, List.not_mem_nil, or_false] at hverdict
      rcases hverdict with rfl | rfl | rfl | rfl | rfl <;>
        simp [Transcript.outcome, Run.status, Outcome.toExcept, hbreakdown, hnone]
    | some breakdown =>
      obtain ⟨front, failed, back, hstopped, -⟩ := hcourse.stopped hbreakdown
      have hsome : ∃ r ∈ t.steps, r.Failed := ⟨failed, hstopped.failed_iff.2 rfl⟩
      simp only [List.mem_cons, List.not_mem_nil, or_false] at hverdict
      rcases hverdict with rfl | rfl | rfl | rfl | rfl <;>
        simp [Transcript.outcome, Run.status, Outcome.toExcept, hbreakdown, hsome]
  · obtain ⟨breakdown, hbreakdown, rfl⟩ := Option.map_eq_some_iff.1 hfault
    obtain ⟨front, failed, back, hstopped, hname⟩ := hcourse.stopped hbreakdown
    refine ⟨failed, breakdown.trace, fun r => hstopped.failed_iff, ?_, ?_⟩
    · rw [hname]
      rfl
    · rw [hname, Transcript.outcome, hbreakdown]
      rfl

/-- Every execution of a built pipeline has this shape, and running it hands back the fault of the
outcome if there is one. -/
theorem execute_shape [Monad m] [LawfulMonad m] (h : b.build = .ok p) (id : RunId)
    (now : m Instant) :
    Prod.fst <$> p.executeLogged id now = p.execute id now ∧
      p.run id now = Outcome.toExcept <$> p.execute id now ∧
      SatisfiesM (fun r => r.1.run.id = id ∧ Shape p r.1 r.2) (p.executeLogged id now) := by
  obtain ⟨⟨hwired, -⟩, harranged⟩ := of_build_eq_ok h
  refine ⟨p.erases_execute id now [], bind_pure_comp .., ?_⟩
  refine (p.satisfiesM_executeLogged id now).imp ?_
  rintro ⟨o, calls⟩ ⟨t, started, finished, hcourse, rfl⟩
  have hflow := flow_of_course harranged hwired hcourse (List.append_nil _).symm
  exact ⟨rfl, hflow.shape hcourse (harranged.nodup_stepNames hwired) id started finished⟩

/-- The step that fails stands between one that completed and one that was not run. -/
theorem halted_shape :
    ∃ p o calls, halted.build = .ok p ∧ p.executeLogged ⟨1⟩ (pure ⟨0⟩) = (o, calls) ∧
      Shape p o calls ∧
      o.run.steps.map (fun r => r.result.word) = ["completed", "failed", "not_run"] := by
  have hwords : (halted.build.toOption.map fun p =>
      (p.executeLogged ⟨1⟩ (pure ⟨0⟩)).1.run.steps.map fun r => r.result.word) =
        some ["completed", "failed", "not_run"] := by
    cbv
  obtain ⟨p, hbuild, hwords⟩ := exists_build_eq_ok hwords
  obtain ⟨-, -, hshape⟩ := execute_shape hbuild ⟨1⟩ (pure ⟨0⟩)
  rw [SatisfiesM_Id_eq] at hshape
  exact ⟨p, _, _, hbuild, rfl, hshape.2, hwords⟩

end Blueprint

end Tableflow
