import Mathlib
import Tableflow.Proofs.Blueprint.Reordering
import Tableflow.Proofs.Execution.Ancestry

/-!
# Runs of reordered blueprints

Reordered blueprints give pipelines that share all their steps, which run in different orders. So by
`Blueprint.Traced.concur_of_ancestors` two runs come to the same result at every step that both
reach. They complete together (`Blueprint.Traced.intact_of_shared`), and where they fail, be it at
different steps, they tell nothing contrary (`Run.Matches`).
-/

namespace Tableflow

variable {m : Type → Type}

/-- Two runs of the same steps complete together with the same outputs, or fail and agree on the
outputs of what completed in both; no step completes in one and fails in the other. -/
structure Run.Matches (r r' : Run) : Prop where
  names : (r.steps.map StepRun.name).Perm (r'.steps.map StepRun.name)
  status : r.status = .completed ↔ r'.status = .completed
  complete : r.status = .completed → ∀ s ∈ r.steps, ∀ s' ∈ r'.steps, s.name = s'.name →
    s.Completed ∧ s'.Completed ∧ s.outputs = s'.outputs
  compatible : ∀ s ∈ r.steps, ∀ s' ∈ r'.steps, s.name = s'.name →
    ¬ (s.Completed ∧ s'.Failed) ∧ ¬ (s.Failed ∧ s'.Completed) ∧
      (s.Completed → s'.Completed → s.outputs = s'.outputs)

theorem Transcript.status_outcome_iff {t : Transcript} {id : RunId} {pipeline : String}
    {started finished : Instant} :
    (t.outcome id pipeline started finished).run.status = .completed ↔ t.breakdown = none := by
  rw [outcome, Run.status]
  cases t.breakdown <;> simp

namespace Blueprint

section Shared

variable [Monad m] {b b' : Blueprint m} {p p' : Pipeline m} {t t' : Transcript}

theorem Traced.map_name_steps (h : b.Traced p t) : t.steps.map StepRun.name = p.stepNames := by
  obtain ⟨calls, hcourse, -⟩ := h.course
  exact hcourse.names

theorem Traced.completed (h : b.Traced p t) (hintact : t.breakdown = none) :
    ∀ r ∈ t.steps, r.Completed := by
  obtain ⟨calls, hcourse, -⟩ := h.course
  exact hcourse.completed hintact

/-- Pipelines of the same steps find the same step under each name. -/
theorem Traced.step?_eq (h : b.Traced p t) (h' : b'.Traced p' t') (hsteps : p.steps.Perm p'.steps)
    (name : String) : p.step? name = p'.step? name := by
  refine Option.ext fun s => ?_
  rw [Pipeline.step?_eq_some_iff h.nodup_stepNames, Pipeline.step?_eq_some_iff h'.nodup_stepNames,
    hsteps.mem_iff]

/-- Pipelines of the same deterministic steps come to the same result at each step that both runs
reach. -/
theorem Traced.concur_of_shared (h : b.Traced p t) (h' : b'.Traced p' t')
    (hsteps : p.steps.Perm p'.steps) (hdet : ∀ s ∈ p.steps, s.step.Deterministic) {r r' : StepRun}
    (hr : r ∈ t.steps) (hr' : r' ∈ t'.steps) (hname : r.name = r'.name) (hran : r.Ran)
    (hran' : r'.Ran) : r.Agrees r' :=
  (h.concur_of_ancestors h' (fun source _ => h.step?_eq h' hsteps source) (fun s hs _ => hdet s hs)
    hr hr' hname hran hran').agrees

/-- If the run of one pipeline completes, so does that of another one of the same steps. -/
theorem Traced.intact_of_shared (h : b.Traced p t) (h' : b'.Traced p' t')
    (hsteps : p.steps.Perm p'.steps) (hdet : ∀ s ∈ p.steps, s.step.Deterministic)
    (hintact : t.breakdown = none) : t'.breakdown = none := by
  refine Option.eq_none_iff_forall_ne_some.2 fun breakdown hbroken => ?_
  obtain ⟨calls, hcourse, -⟩ := h'.course
  obtain ⟨front, failed, back, hstopped, -⟩ := hcourse.stopped hbroken
  obtain ⟨hfailed, hran⟩ := hstopped.failed_iff.2 rfl
  -- the step that failed has completed in the first run
  obtain ⟨r, hr, hname⟩ : ∃ r ∈ t.steps, r.name = failed.name := by
    have hmem : failed.name ∈ p'.stepNames :=
      h'.map_name_steps ▸ List.mem_map_of_mem (f := StepRun.name) hfailed
    rwa [← List.mem_map, h.map_name_steps, Pipeline.stepNames, (hsteps.map _).mem_iff]
  have hcompleted := h.completed hintact r hr
  have hagrees := h.concur_of_shared h' hsteps hdet hr hfailed hname (.inl hcompleted) (.inr hran)
  exact StepRun.not_failed_of_completed hcompleted (hagrees.failed.2 hran)

theorem Traced.matches_of_shared (h : b.Traced p t) (h' : b'.Traced p' t')
    (hsteps : p.steps.Perm p'.steps) (hdet : ∀ s ∈ p.steps, s.step.Deterministic) (id id' : RunId)
    (started finished started' finished' : Instant) :
    (t.outcome id p.name started finished).run.Matches
      (t'.outcome id' p'.name started' finished').run := by
  have hdet' : ∀ s ∈ p'.steps, s.step.Deterministic := fun s hs =>
    hdet s (hsteps.symm.subset hs)
  have hintact : t.breakdown = none ↔ t'.breakdown = none :=
    ⟨h.intact_of_shared h' hsteps hdet, h'.intact_of_shared h hsteps.symm hdet'⟩
  have hagrees := fun r (hr : r ∈ t.steps) r' (hr' : r' ∈ t'.steps) (hname : r.name = r'.name) =>
    h.concur_of_shared h' hsteps hdet hr hr' hname
  refine ⟨?_, ?_, fun hstatus r hr r' hr' hname => ?_, fun r hr r' hr' hname => ⟨?_, ?_, ?_⟩⟩
  · change (t.steps.map StepRun.name).Perm (t'.steps.map StepRun.name)
    rw [h.map_name_steps, h'.map_name_steps]
    exact hsteps.map _
  · rw [Transcript.status_outcome_iff, Transcript.status_outcome_iff, hintact]
  · rw [Transcript.status_outcome_iff] at hstatus
    have hcompleted := h.completed hstatus r hr
    have hcompleted' := h'.completed (hintact.1 hstatus) r' hr'
    exact ⟨hcompleted, hcompleted',
      (hagrees r hr r' hr' hname (.inl hcompleted) (.inl hcompleted')).outputs⟩
  · rintro ⟨hcompleted, hfailed⟩
    refine StepRun.not_failed_of_completed hcompleted ?_
    exact (hagrees r hr r' hr' hname (.inl hcompleted) (.inr hfailed)).failed.2 hfailed
  · rintro ⟨hfailed, hcompleted⟩
    refine StepRun.not_failed_of_completed hcompleted ?_
    exact (hagrees r hr r' hr' hname (.inr hfailed) (.inl hcompleted)).failed.1 hfailed
  · exact fun hcompleted hcompleted' =>
      (hagrees r hr r' hr' hname (.inl hcompleted) (.inl hcompleted')).outputs

end Shared

variable [Monad m] [LawfulMonad m] {b b' : Blueprint m}

/-- The order of declaration decides neither whether a blueprint is built nor, if its bodies are
deterministic, what its runs come to. -/
theorem run_of_reordered (h : Reordered b b') (hdet : ∀ s ∈ b.steps, s.step.Deterministic) :
    ((∃ p, b.build = .ok p) ↔ ∃ p', b'.build = .ok p') ∧
      ∀ p p', b.build = .ok p → b'.build = .ok p' →
        ∀ (id id' : RunId) (now now' : m Instant),
          Relates (fun o o' => o.run.Matches o'.run) (p.execute id now) (p'.execute id' now') := by
  refine ⟨h.build_iff, fun p p' hp hp' id id' now now' => ?_⟩
  refine .of_satisfiesM (satisfiesM_traced hp id now) (satisfiesM_traced hp' id' now') ?_
  rintro o o' ⟨t, started, finished, ht, rfl⟩ ⟨t', started', finished', ht', rfl⟩
  refine ht.matches_of_shared ht' (h.steps_perm ht.wired ht.arranged ht'.arranged)
    (fun s hs => ?_) id id' started finished started' finished'
  obtain ⟨s', hs', rfl⟩ := ht.arranged.exists_place_of_mem hs
  exact hdet s' hs'

/-- A source that feeds two steps, of which each fails. -/
def forked : Blueprint Id where
  name := "forked"
  steps := [⟨"source", ⟨[], ["out"]⟩, fun _ => .ok (.ofList [("out", .of .int64 7)])⟩,
    ⟨"left", ⟨["x"], []⟩, fun _ => .error (.text "left out")⟩,
    ⟨"right", ⟨["x", "by"], []⟩, fun _ => .error (.text "right out")⟩]
  edges := [⟨"source", "out", "left", "x"⟩, ⟨"source", "out", "right", "x"⟩]
  constants := [⟨"right", "by", .of .int64 3⟩]

/-- The same, declared the other way round. -/
def turned : Blueprint Id :=
  ⟨"turned", forked.steps.reverse, forked.edges.reverse, forked.constants.reverse⟩

/-- The two runs fail at different steps and agree on the source. -/
theorem forked_turned :
    ∃ p p', forked.build = .ok p ∧ turned.build = .ok p' ∧ Reordered forked turned ∧
      (p.execute ⟨1⟩ (pure ⟨0⟩)).run.run.failure = some ⟨"left", "left out"⟩ ∧
      (p'.execute ⟨2⟩ (pure ⟨5⟩)).run.run.failure = some ⟨"right", "right out"⟩ ∧
      (p.execute ⟨1⟩ (pure ⟨0⟩)).run.run.Matches (p'.execute ⟨2⟩ (pure ⟨5⟩)).run.run := by
  have hreordered : Reordered forked turned :=
    ⟨(List.reverse_perm _).symm, (List.reverse_perm _).symm, (List.reverse_perm _).symm⟩
  have hfailure : (forked.build.toOption.map fun p =>
      (p.execute ⟨1⟩ (pure ⟨0⟩)).run.run.failure) = some (some ⟨"left", "left out"⟩) := by
    cbv
  have hfailure' : (turned.build.toOption.map fun p =>
      (p.execute ⟨2⟩ (pure ⟨5⟩)).run.run.failure) = some (some ⟨"right", "right out"⟩) := by
    cbv
  obtain ⟨p, hp, hfailure⟩ := exists_build_eq_ok hfailure
  obtain ⟨p', hp', hfailure'⟩ := exists_build_eq_ok hfailure'
  obtain ⟨-, hmatches⟩ := run_of_reordered hreordered fun s _ => s.step.deterministic_id
  have hmatches := relates_id.1 (hmatches p p' hp hp' ⟨1⟩ ⟨2⟩ (pure ⟨0⟩) (pure ⟨5⟩))
  exact ⟨p, p', hp, hp', hreordered, hfailure, hfailure', hmatches⟩

end Blueprint

end Tableflow
