import Mathlib
import Tableflow.Proofs.Execution.Shape
import Tableflow.Proofs.Program

/-!
# What a result depends on

The result of a step in a run of a built pipeline depends on the step and its ancestors only, if
their bodies are functions of their inputs (`Step.Deterministic`). The record of a step that ran
comes from a transcript of the steps before it (`Course.origin`), of which a step sees nothing but
the outputs of its predecessors (`BoundStep.gatherInputs_congr`). So by induction along the order of
one of two pipelines that share the ancestors of a step, any runs of the two come to the same result
there (`Blueprint.Traced.concur_of_ancestors`).
-/

namespace Tableflow

open Relation

variable {m : Type → Type}

/-! ## Deterministic bodies -/

namespace Step

variable [Monad m]

/-- What a body returns is what a function says about its inputs. -/
def Computes (s : Step m) (f : Inputs → Except Trace Outputs) : Prop :=
  ∀ inputs, SatisfiesM (· = f inputs) (s.body inputs)

/-- What a body returns depends on its inputs only. -/
def Deterministic (s : Step m) : Prop := ∃ f, s.Computes f

open Classical in
/-- The function that a deterministic body computes. -/
noncomputable def function (s : Step m) : Inputs → Except Trace Outputs :=
  if h : s.Deterministic then h.choose else fun _ => .ok .empty

theorem deterministic_id (s : Step Id) : s.Deterministic :=
  ⟨s.body, fun _ => SatisfiesM_Id_eq.2 rfl⟩

theorem Deterministic.computes {s : Step m} (h : s.Deterministic) : s.Computes s.function := by
  rw [function, dif_pos h]
  exact h.choose_spec

end Step

/-! ## Where a result comes from -/

namespace BoundStep

/-- What a step can come to behind a transcript: what its body answers, or that its inputs cannot be
gathered. -/
inductive Yields (returns : String → Inputs → Except Trace Outputs → Prop) (s : BoundStep m)
    (before : Transcript) : Except Trace Outputs → Prop
  | answered {inputs : Inputs} {answer : Except Trace Outputs}
      (gathered : s.gatherInputs before = .ok inputs) (returned : returns s.name inputs answer) :
      Yields returns s before (s.conclude answer)
  | refused {fault : Fault} (gathered : s.gatherInputs before = .error fault) :
      Yields returns s before (.error (.fault fault))

/-- A step whose body is a function comes to one result behind transcripts from which it gathers the
same inputs. -/
theorem Yields.unique {returns returns' : String → Inputs → Except Trace Outputs → Prop}
    {s : BoundStep m} {before before' : Transcript} {result result' : Except Trace Outputs}
    {f : Inputs → Except Trace Outputs} (h : s.Yields returns before result)
    (h' : s.Yields returns' before' result')
    (hf : ∀ inputs answer, returns s.name inputs answer → answer = f inputs)
    (hf' : ∀ inputs answer, returns' s.name inputs answer → answer = f inputs)
    (hgather : s.gatherInputs before = s.gatherInputs before') : result = result' := by
  cases h with
  | answered gathered returned =>
    cases h' with
    | answered gathered' returned' =>
      obtain rfl := Except.ok.inj (gathered.symm.trans (hgather.trans gathered'))
      rw [hf _ _ returned, hf' _ _ returned']
    | refused gathered' =>
      rw [hgather, gathered'] at gathered
      cases gathered
  | refused gathered =>
    cases h' with
    | answered gathered' _ =>
      rw [hgather, gathered'] at gathered
      cases gathered
    | refused gathered' =>
      rw [Except.error.inj (gathered.symm.trans (hgather.trans gathered'))]

/-- What a step gathers from a transcript are constants and outputs of its predecessors. -/
theorem gatherInputs_congr {s : BoundStep m} {before before' : Transcript}
    (h : ∀ source ∈ s.predecessors, ∃ r r', before.completed? source = some r ∧
      before'.completed? source = some r' ∧ r.name = r'.name ∧ r.outputs = r'.outputs) :
    s.gatherInputs before = s.gatherInputs before' := by
  have hresolve : ∀ input source, s.bindings.find? input = some source →
      s.resolve before source = s.resolve before' source := by
    intro input source hsource
    cases source with
    | constant value => rfl
    | output step output =>
      obtain ⟨r, r', hr, hr', hname, houtputs⟩ := h step (mem_predecessors.2 ⟨_, _, hsource⟩)
      rw [Transcript.resolve_output hr, Transcript.resolve_output hr', StepRun.output,
        StepRun.output, hname, houtputs]
  rw [gatherInputs, gatherInputs, Dictionary.mapM_congr hresolve]

end BoundStep

/-- The record at a place of a course comes from a result of the step there, which has been reached
behind the steps before it. A failure is what the run has ended with. -/
structure Origin (returns : String → Inputs → Except Trace Outputs → Prop)
    (done : List (BoundStep m)) (t : Transcript) (i : Nat) (s : BoundStep m) (r : StepRun)
    (before : Transcript) (result : Except Trace Outputs) : Prop where
  course : ∃ calls, Course (done.take i) before calls
  intact : before.breakdown = none
  kept : before.steps <+: t.steps
  yields : s.Yields returns before result
  record : ∃ started finished, r = ⟨s.name, .ofExcept started finished result⟩
  broken : ∀ trace, result = .error trace → t.breakdown = some ⟨s.name, trace⟩

section Origin

variable {returns : String → Inputs → Except Trace Outputs → Prop} {done : List (BoundStep m)}
  {t : Transcript} {calls : List Call} {i : Nat} {s : BoundStep m} {r : StepRun}

/-- A step that ran has an origin when it is recorded. -/
theorem Origin.last {result : Except Trace Outputs} (hcourse : Course done t calls)
    (hintact : t.breakdown = none) (hyields : s.Yields returns t result)
    (started finished : Instant) :
    Origin returns (done ++ [s]) (t.record s.name started finished result) done.length s
      ⟨s.name, .ofExcept started finished result⟩ t result := by
  refine ⟨⟨calls, ?_⟩, hintact, ?_, hyields, ⟨started, finished, rfl⟩, fun trace htrace => ?_⟩
  · rwa [List.take_left]
  · rw [Transcript.steps_record]
    exact List.prefix_append _ _
  · rw [htrace]
    rfl

/-- An origin is kept by what is recorded later. -/
theorem Origin.later {before t' : Transcript} {result : Except Trace Outputs}
    (h : Origin returns done t i s r before result) (hi : i ≤ done.length)
    (hsteps : t.steps <+: t'.steps) (hbroken : t.breakdown ≠ none → t'.breakdown = t.breakdown)
    (s' : BoundStep m) : Origin returns (done ++ [s']) t' i s r before result := by
  refine ⟨?_, h.intact, h.kept.trans hsteps, h.yields, h.record, fun trace htrace => ?_⟩
  · rw [List.take_append_of_le_length hi]
    exact h.course
  · have hb := h.broken trace htrace
    rw [hbroken (by simp [hb]), hb]

/-- What stands at one place of two lists of the same length that grow at their ends. -/
theorem getElem?_snoc_cases {α β : Type} {as : List α} {bs : List β} {a x : α} {b y : β}
    (hlength : bs.length = as.length) (hx : (as ++ [a])[i]? = some x)
    (hy : (bs ++ [b])[i]? = some y) :
    (i < as.length ∧ as[i]? = some x ∧ bs[i]? = some y) ∨ (i = as.length ∧ a = x ∧ b = y) := by
  rcases getElem?_concat_cases hx with hx | ⟨rfl, rfl⟩
  · have hi : i < as.length := (List.getElem?_eq_some_iff.1 hx).1
    rw [List.getElem?_append_left (hlength ▸ hi)] at hy
    exact .inl ⟨hi, hx, hy⟩
  · rw [← hlength, List.getElem?_concat_length, Option.some.injEq] at hy
    exact .inr ⟨rfl, rfl, hy⟩

/-- If the records so far have an origin, they all have one when a result is recorded. -/
theorem Origin.recorded {s' : BoundStep m} {result : Except Trace Outputs}
    {started finished : Instant}
    (hcourse : Course done t calls) (hintact : t.breakdown = none)
    (hyields : s'.Yields returns t result) (hs : (done ++ [s'])[i]? = some s)
    (hr : (t.record s'.name started finished result).steps[i]? = some r)
    (hsofar : done[i]? = some s → t.steps[i]? = some r →
      ∃ before result, Origin returns done t i s r before result) :
    ∃ before result', Origin returns (done ++ [s']) (t.record s'.name started finished result) i s r
      before result' := by
  rw [Transcript.steps_record] at hr
  rcases getElem?_snoc_cases hcourse.length_steps hs hr with ⟨hi, hs, hr⟩ | ⟨rfl, rfl, rfl⟩
  · obtain ⟨before, result', horigin⟩ := hsofar hs hr
    refine ⟨before, result', horigin.later hi.le ?_ (fun hb => absurd hintact hb) s'⟩
    rw [Transcript.steps_record]
    exact List.prefix_append _ _
  · exact ⟨t, _, .last hcourse hintact hyields started finished⟩

/-- The record of a step that ran comes from a result of that step. -/
theorem Course.origin (h : Course done t calls) (hanswered : Answered returns calls)
    (hs : done[i]? = some s) (hr : t.steps[i]? = some r) (hran : r.Ran) :
    ∃ before result, Origin returns done t i s r before result := by
  induction h with
  | start => cases hs
  | called answer started finished before intact gathered ih =>
    have hreturned := hanswered _ (List.mem_append_right _ List.mem_cons_self)
    exact Origin.recorded before intact (.answered gathered hreturned) hs hr
      (ih fun call hcall => hanswered call (List.mem_append_left _ hcall))
  | refused started finished before intact gathered ih =>
    exact Origin.recorded before intact (.refused gathered) hs hr (ih hanswered)
  | @skipped done t calls s' b before broken ih =>
    rcases getElem?_snoc_cases before.length_steps hs hr with ⟨hi, hs, hr⟩ | ⟨rfl, rfl, rfl⟩
    · obtain ⟨first, result, horigin⟩ := ih hanswered hs hr
      have hkept : t.steps <+: (t.skip s'.name).steps := List.prefix_append _ _
      exact ⟨first, result, horigin.later hi.le hkept (fun _ => rfl) s'⟩
    · exact absurd hran (StepRun.not_ran_of_notRun rfl)

end Origin

/-! ## Steps of pipelines -/

namespace Pipeline

variable {p : Pipeline m}

/-- A step takes an output of another one. -/
def Feeds (p : Pipeline m) (source target : String) : Prop :=
  ∃ names, p.predecessorsOf target = .ok names ∧ source ∈ names

theorem feeds_of_mem_predecessors {source target : String} {s : BoundStep m}
    (hs : p.step? target = some s) (h : source ∈ s.predecessors) : p.Feeds source target :=
  ⟨s.predecessors, by rw [predecessorsOf, hs], h⟩

variable [Monad m]

/-- The deterministic steps of a pipeline answer as their functions say. -/
def Returns (p : Pipeline m) (name : String) (inputs : Inputs) (answer : Except Trace Outputs) :
    Prop :=
  ∀ s, p.step? name = some s → s.step.Deterministic → answer = s.step.function inputs

theorem answers_returns [LawfulMonad m] (h : p.stepNames.Nodup) : Answers p.Returns p.steps := by
  intro s hs inputs
  have hstep := (step?_eq_some_iff h).2 ⟨hs, rfl⟩
  by_cases hdet : s.step.Deterministic
  · refine (hdet.computes inputs).imp fun hanswer s' hs' _ => ?_
    rw [hstep] at hs'
    rwa [← Option.some.inj hs']
  · refine .of_true fun answer s' hs' hdet' => ?_
    rw [hstep] at hs'
    exact absurd (Option.some.inj hs' ▸ hdet') hdet

end Pipeline

/-! ## Runs that share the ancestors of a step -/

/-- Two records tell the same about how a step went and what it made; the times may differ. -/
structure StepRun.Agrees (r r' : StepRun) : Prop where
  completed : r.Completed ↔ r'.Completed
  failed : r.Failed ↔ r'.Failed
  outputs : r.outputs = r'.outputs

theorem StepRun.agrees_ofExcept (name : String) (result : Except Trace Outputs)
    (started finished started' finished' : Instant) :
    Agrees ⟨name, .ofExcept started finished result⟩
      ⟨name, .ofExcept started' finished' result⟩ := by
  cases result <;> exact ⟨by simp [Completed, StepResult.ofExcept],
    by simp [Failed, StepResult.ofExcept], rfl⟩

namespace Blueprint

section Traced

variable [Monad m]

/-- A transcript of all steps of a built pipeline, whose deterministic steps have answered as their
functions say. -/
structure Traced (b : Blueprint m) (p : Pipeline m) (t : Transcript) : Prop where
  arranged : b.Arranged p
  wired : b.Wired
  course : ∃ calls, Course p.steps t calls ∧ Answered p.Returns calls

variable {b b' : Blueprint m} {p p' : Pipeline m} {t t' : Transcript}

theorem Traced.nodup_stepNames (h : b.Traced p t) : p.stepNames.Nodup :=
  h.arranged.nodup_stepNames h.wired

/-- The record of a step that ran is that of a step of the pipeline and has an origin. -/
theorem Traced.exists_origin (h : b.Traced p t) {i : Nat} {r : StepRun}
    (hr : t.steps[i]? = some r) (hran : r.Ran) :
    ∃ s before result, p.steps[i]? = some s ∧ p.step? r.name = some s ∧ r.name = s.name ∧
      Origin p.Returns p.steps t i s r before result := by
  obtain ⟨calls, hcourse, hanswered⟩ := h.course
  have hi : i < p.steps.length := by
    rw [← hcourse.length_steps]
    exact (List.getElem?_eq_some_iff.1 hr).1
  have hs : p.steps[i]? = some p.steps[i] := List.getElem?_eq_getElem hi
  obtain ⟨before, result, horigin⟩ := hcourse.origin hanswered hs hr hran
  have hname : r.name = p.steps[i].name := by
    obtain ⟨_, _, rfl⟩ := horigin.record
    rfl
  refine ⟨p.steps[i], before, result, hs, ?_, hname, horigin⟩
  exact (Pipeline.step?_eq_some_iff h.nodup_stepNames).2 ⟨List.getElem_mem hi, hname.symm⟩

/-- Where the record of a step comes from, its predecessors have completed. -/
theorem Traced.exists_completed (h : b.Traced p t) {i : Nat} {s : BoundStep m} {r : StepRun}
    {before : Transcript} {result : Except Trace Outputs} (hs : p.steps[i]? = some s)
    (horigin : Origin p.Returns p.steps t i s r before result) {source : String}
    (hsource : source ∈ s.predecessors) :
    ∃ q, before.completed? source = some q ∧ q.name = source ∧ q.Completed ∧
      ∃ j < i, t.steps[j]? = some q := by
  obtain ⟨hi, rfl⟩ := List.getElem?_eq_some_iff.1 hs
  obtain ⟨s', hs', hplace⟩ := h.arranged.exists_place_of_mem (List.getElem_mem hi)
  have hfeeds : b.Feeds source p.steps[i].name := by
    rw [hplace] at hsource ⊢
    exact (mem_predecessors_iff h.wired.ports_nodup).1 hsource
  have hsplit : p.steps = p.steps.take i ++ p.steps[i] :: p.steps.drop (i + 1) := by
    rw [List.getElem_cons_drop, List.take_append_drop]
  have hnames : p.stepNames = (p.steps.take i).map BoundStep.name ++ p.steps[i].name ::
      (p.steps.drop (i + 1)).map BoundStep.name := by
    rw [← List.map_cons, ← List.map_append, ← hsplit]
    rfl
  have hready := (h.arranged.stepNames_at_split h.wired hnames).1
  obtain ⟨calls, hcourse⟩ := horigin.course
  obtain ⟨q, hq, hname, hcompleted, -⟩ := holds_of_course h.arranged h.wired hsplit hcourse
    horigin.intact (hready.fed source hfeeds)
  obtain ⟨j, hj⟩ := List.getElem?_of_mem (Transcript.mem_of_completed? hq)
  have hlt := (List.getElem?_eq_some_iff.1 hj).1
  refine ⟨q, hq, hname, hcompleted, j, ?_, ?_⟩
  · rw [hcourse.length_steps, List.length_take] at hlt
    exact hlt.trans_le (Nat.min_le_left _ _)
  · obtain ⟨rest, hrest⟩ := horigin.kept
    rw [← hrest, List.getElem?_append_left hlt, hj]

/-- A step has come to the same result in two runs, and a failure is what both have ended with. -/
structure Concur (t t' : Transcript) (r r' : StepRun) : Prop where
  agrees : r.Agrees r'
  broken : r.Failed → ∃ trace, t.breakdown = some ⟨r.name, trace⟩ ∧
    t'.breakdown = some ⟨r.name, trace⟩

/-- Two pipelines that share a deterministic step and its ancestors come to the same result there
whenever both runs reach the step. -/
theorem Traced.concur_of_ancestors (h : b.Traced p t) (h' : b'.Traced p' t') {r r' : StepRun}
    (hsame : ∀ source, ReflTransGen p.Feeds source r.name → p.step? source = p'.step? source)
    (hdet : ∀ s ∈ p.steps, ReflTransGen p.Feeds s.name r.name → s.step.Deterministic)
    (hr : r ∈ t.steps) (hr' : r' ∈ t'.steps) (hname : r.name = r'.name) (hran : r.Ran)
    (hran' : r'.Ran) : Concur t t' r r' := by
  obtain ⟨i, hi⟩ := List.getElem?_of_mem hr
  obtain ⟨i', hi'⟩ := List.getElem?_of_mem hr'
  -- the predecessors of a step stand before it in the order of the first pipeline
  induction i using Nat.strong_induction_on generalizing r r' i' with
  | _ i ih =>
    obtain ⟨s, before, result, hs, hstep, hrname, horigin⟩ := h.exists_origin hi hran
    obtain ⟨s', before', result', hs', hstep', -, horigin'⟩ := h'.exists_origin hi' hran'
    obtain rfl : s = s' := by
      rw [← hname, ← hsame r.name .refl, hstep] at hstep'
      exact Option.some.inj hstep'
    have hgather : s.gatherInputs before = s.gatherInputs before' := by
      refine BoundStep.gatherInputs_congr fun source hsource => ?_
      obtain ⟨q, hq, rfl, hcompleted, j, hj, hqj⟩ := h.exists_completed hs horigin hsource
      obtain ⟨q', hq', hqname, hcompleted', j', -, hqj'⟩ :=
        h'.exists_completed hs' horigin' hsource
      have hfeeds : ReflTransGen p.Feeds q.name r.name :=
        .single (Pipeline.feeds_of_mem_predecessors hstep hsource)
      have hconcur := ih j hj (fun x hx => hsame x (hx.trans hfeeds))
        (fun x hx hxq => hdet x hx (hxq.trans hfeeds)) (List.mem_of_getElem? hqj)
        (List.mem_of_getElem? hqj') hqname.symm (.inl hcompleted) (.inl hcompleted') hqj j' hqj'
      exact ⟨q, q', hq, hq', hqname.symm, hconcur.agrees.outputs⟩
    have hfunction : s.step.Deterministic := by
      refine hdet s (List.mem_of_getElem? hs) ?_
      rw [hrname]
    obtain rfl : result = result' := horigin.yields.unique horigin'.yields
      (fun inputs answer hanswer => hanswer s (hrname ▸ hstep) hfunction)
      (fun inputs answer hanswer => hanswer s (hrname ▸ hname ▸ hstep') hfunction) hgather
    obtain ⟨started, finished, rfl⟩ := horigin.record
    obtain ⟨started', finished', rfl⟩ := horigin'.record
    refine ⟨StepRun.agrees_ofExcept .., fun hfailed => ?_⟩
    cases result with
    | ok outputs => exact absurd hfailed (StepRun.not_failed_of_completed ⟨_, _, _, rfl⟩)
    | error trace => exact ⟨trace, horigin.broken trace rfl, horigin'.broken trace rfl⟩

end Traced

/-! ## Executions -/

theorem satisfiesM_traced [Monad m] [LawfulMonad m] {b : Blueprint m} {p : Pipeline m}
    (h : b.build = .ok p) (id : RunId) (now : m Instant) :
    SatisfiesM (fun o => ∃ t started finished, b.Traced p t ∧
      o = t.outcome id p.name started finished) (p.execute id now) := by
  obtain ⟨⟨hwired, -⟩, harranged⟩ := of_build_eq_ok h
  have hanswers := Pipeline.answers_returns (harranged.nodup_stepNames hwired)
  refine (p.satisfiesM_execute id now hanswers).imp ?_
  rintro o ⟨t, calls, started, finished, hcourse, hanswered, rfl⟩
  exact ⟨t, started, finished, ⟨harranged, hwired, calls, hcourse, hanswered⟩, rfl⟩

/-- If two built pipelines have a step and all its ancestors in common and the bodies of these are
deterministic, then the step goes the same way and makes the same outputs in all runs of the two
that reach it, and if it fails, the runs end with the same failure. -/
theorem result_of_ancestors [Monad m] [LawfulMonad m] {b b' : Blueprint m} {p p' : Pipeline m}
    (h : b.build = .ok p) (h' : b'.build = .ok p') {name : String}
    (hsame : ∀ source, ReflTransGen p.Feeds source name → p.step? source = p'.step? source)
    (hdet : ∀ s ∈ p.steps, ReflTransGen p.Feeds s.name name → s.step.Deterministic)
    (id id' : RunId) (now now' : m Instant) :
    Relates (fun o o' => ∀ r ∈ o.run.steps, ∀ r' ∈ o'.run.steps, r.name = name → r'.name = name →
        r.Ran → r'.Ran → r.Agrees r' ∧ (r.Failed → ∃ trace,
          o.error = some (.stepFailed id name trace) ∧
            o'.error = some (.stepFailed id' name trace)))
      (p.execute id now) (p'.execute id' now') := by
  refine .of_satisfiesM (satisfiesM_traced h id now) (satisfiesM_traced h' id' now') ?_
  rintro o o' ⟨t, _, _, ht, rfl⟩ ⟨t', _, _, ht', rfl⟩ r hr r' hr' rfl hname hran hran'
  have hconcur := ht.concur_of_ancestors ht' hsame hdet hr hr' hname.symm hran hran'
  refine ⟨hconcur.agrees, fun hfailed => ?_⟩
  obtain ⟨trace, hbroken, hbroken'⟩ := hconcur.broken hfailed
  exact ⟨trace, by rw [Transcript.outcome, hbroken]; rfl, by rw [Transcript.outcome, hbroken']; rfl⟩

/-- The source of `halted` and the step that it feeds, beside another step and without the one
behind them. -/
def beside : Blueprint Id where
  name := "beside"
  steps := ⟨"noise", ⟨[], ["out"]⟩, fun _ => .ok (.ofList [("out", .of .bool true)])⟩ ::
    halted.steps.tail
  edges := [⟨"source", "out", "scale", "x"⟩]
  constants := halted.constants

/-- The step fails in the same way with and without the others. -/
theorem halted_beside :
    ∃ p p' trace, halted.build = .ok p ∧ beside.build = .ok p' ∧
      (∀ source, ReflTransGen p.Feeds source "scale" → p.step? source = p'.step? source) ∧
      (p.execute ⟨1⟩ (pure ⟨0⟩)).run.error = some (.stepFailed ⟨1⟩ "scale" trace) ∧
      (p'.execute ⟨2⟩ (pure ⟨5⟩)).run.error = some (.stepFailed ⟨2⟩ "scale" trace) := by
  have hsteps : (halted.build.toOption.map fun p => (p.step? "scale", p.step? "source")) =
      beside.build.toOption.map fun p => (p.step? "scale", p.step? "source") := by
    cbv
  have hran : (halted.build.toOption.map fun p =>
      (((p.predecessorsOf "scale").toOption, (p.predecessorsOf "source").toOption),
        (p.execute ⟨1⟩ (pure ⟨0⟩)).run.run.steps[1]?)) =
        some ((some ["source"], some []), some ⟨"scale", .failed ⟨0⟩ ⟨0⟩⟩) := by
    cbv
  have hran' : (beside.build.toOption.map fun p' =>
      (p'.execute ⟨2⟩ (pure ⟨5⟩)).run.run.steps[2]?) =
        some (some ⟨"scale", .failed ⟨5⟩ ⟨5⟩⟩) := by
    cbv
  obtain ⟨p, hp, hran⟩ := exists_build_eq_ok hran
  obtain ⟨p', hp', hran'⟩ := exists_build_eq_ok hran'
  rw [hp, hp'] at hsteps
  obtain ⟨hscale, hsource⟩ := Prod.mk.inj (Option.some.inj hsteps)
  obtain ⟨hfeeds, hran⟩ := Prod.mk.inj hran
  obtain ⟨hfeedsScale, hfeedsSource⟩ := Prod.mk.inj hfeeds
  have hsame : ∀ source, ReflTransGen p.Feeds source "scale" →
      p.step? source = p'.step? source := by
    intro source hpath
    rcases ReflTransGen.cases_tail hpath with rfl | ⟨last, hpath, names, hnames, hlast⟩
    · exact hscale
    rw [hnames] at hfeedsScale
    obtain rfl := Option.some.inj hfeedsScale
    obtain rfl := List.mem_singleton.1 hlast
    rcases ReflTransGen.cases_tail hpath with rfl | ⟨last, -, names, hnames, hlast⟩
    · exact hsource
    · rw [hnames] at hfeedsSource
      obtain rfl := Option.some.inj hfeedsSource
      cases hlast
  have hresult := relates_id.1 (result_of_ancestors hp hp' hsame
    (fun s _ _ => s.step.deterministic_id) ⟨1⟩ ⟨2⟩ (pure ⟨0⟩) (pure ⟨5⟩))
  obtain ⟨-, hfailed⟩ := hresult _ (List.mem_of_getElem? hran) _ (List.mem_of_getElem? hran') rfl
    rfl (.inr ⟨_, _, rfl⟩) (.inr ⟨_, _, rfl⟩)
  obtain ⟨trace, herror, herror'⟩ := hfailed ⟨_, _, rfl⟩
  exact ⟨p, p', trace, hp, hp', hsame, herror, herror'⟩

end Blueprint

end Tableflow
