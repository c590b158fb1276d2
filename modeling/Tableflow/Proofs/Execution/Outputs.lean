import Mathlib
import Tableflow.Proofs.Execution.Shape

/-!
# Outputs that are let through

The outputs that a body returns are recorded as they are if their names are the declared ones. For
any other outputs the step is recorded without outputs, as one that failed, and the run ends with
what is objected to in them (`BoundStep.Objects`). So every call is accounted for by the record at
its place, and every step that completed has been called and keeps what its body returned
(`Accounts`).

The main statement is `Pipeline.execute_checks_outputs`.
-/

namespace Tableflow

variable {m : Type → Type}

/-! ## Calls and their records -/

/-- A record of a step is what the step makes of the result of a call; a failure has ended the run
as it is. -/
structure Concludes (t : Transcript) (s : BoundStep m) (call : Call) (r : StepRun) : Prop where
  named : call.step = s.name
  recorded : ∃ started finished,
    r = ⟨s.name, .ofExcept started finished (s.conclude call.result)⟩
  broken : ∀ trace, s.conclude call.result = .error trace → t.breakdown = some ⟨s.name, trace⟩

/-- The failure of a run is not changed by what is recorded behind it. -/
theorem Concludes.later {t t' : Transcript} {s : BoundStep m} {call : Call} {r : StepRun}
    (h : Concludes t s call r) (hbroken : ∀ b, t.breakdown = some b → t'.breakdown = some b) :
    Concludes t' s call r :=
  ⟨h.named, h.recorded, fun trace htrace => hbroken _ (h.broken trace htrace)⟩

/-- What came of the calls: the first steps have been called, one after another, and all of them as
long as nothing has failed. Each call stands at the place of its step and of the record that it led
to, and only steps that were called have completed. -/
structure Accounts (done : List (BoundStep m)) (t : Transcript) (calls : List Call) : Prop where
  length_le : calls.length ≤ done.length
  intact : t.breakdown = none → calls.length = done.length
  called : ∀ (i : Nat) (call : Call), calls[i]? = some call →
    ∃ s r, done[i]? = some s ∧ t.steps[i]? = some r ∧ Concludes t s call r
  completed : ∀ (i : Nat) (r : StepRun), t.steps[i]? = some r → r.Completed → i < calls.length

namespace Accounts

variable {done : List (BoundStep m)} {t t' : Transcript} {calls : List Call}

/-- A step that is not called has not completed and is found behind a failure. -/
theorem uncalled (h : Accounts done t calls) (s : BoundStep m) {r : StepRun}
    (hr : ¬ r.Completed) (hsteps : t'.steps = t.steps ++ [r]) (hfailed : t'.breakdown ≠ none)
    (hbroken : ∀ b, t.breakdown = some b → t'.breakdown = some b) :
    Accounts (done ++ [s]) t' calls := by
  refine ⟨?_, fun hnone => absurd hnone hfailed, fun i call hcall => ?_, fun i r' hr' hdone => ?_⟩
  · rw [List.length_append]
    exact h.length_le.trans (Nat.le_add_right _ _)
  · obtain ⟨s', r', hs', hr', hconcludes⟩ := h.called i call hcall
    rw [hsteps]
    exact ⟨s', r', getElem?_append_of_eq_some hs' _, getElem?_append_of_eq_some hr' _,
      hconcludes.later hbroken⟩
  · rw [hsteps] at hr'
    rcases getElem?_concat_cases hr' with hr' | ⟨-, rfl⟩
    · exact h.completed i r' hr' hdone
    · exact absurd hdone hr

/-- A step that is called gets a record of what came of the call. -/
theorem snoc (h : Accounts done t calls) (hlength : t.steps.length = done.length)
    (hintact : t.breakdown = none) (s : BoundStep m) (inputs : Inputs)
    (result : Except Trace Outputs) (started finished : Instant) :
    Accounts (done ++ [s]) (t.record s.name started finished (s.conclude result))
      (calls ++ [⟨s.name, inputs, result⟩]) := by
  have hcalls : calls.length = done.length := h.intact hintact
  have hgrown (call : Call) : (calls ++ [call]).length = (done ++ [s]).length := by
    rw [List.length_append, List.length_append, hcalls]
    rfl
  refine ⟨(hgrown _).le, fun _ => hgrown _, fun i call hcall => ?_, fun i r hr _ => ?_⟩
  · rw [Transcript.steps_record]
    rcases getElem?_concat_cases hcall with hcall | ⟨rfl, rfl⟩
    · obtain ⟨s', r', hs', hr', hconcludes⟩ := h.called i call hcall
      -- nothing has failed so far, so there is no failure that the new record could hide
      refine ⟨s', r', getElem?_append_of_eq_some hs' _, getElem?_append_of_eq_some hr' _,
        hconcludes.later fun b hb => ?_⟩
      rw [hintact] at hb
      cases hb
    · refine ⟨s, _, by rw [hcalls, List.getElem?_concat_length],
        by rw [hcalls, ← hlength, List.getElem?_concat_length], rfl, ⟨started, finished, rfl⟩,
        fun trace htrace => ?_⟩
      dsimp only at htrace
      rw [htrace]
      rfl
  · have hlt := (List.getElem?_eq_some_iff.1 hr).1
    rw [Transcript.steps_record, List.length_append, hlength] at hlt
    rwa [hgrown, List.length_append]

end Accounts

variable {done : List (BoundStep m)} {t : Transcript} {calls : List Call}

theorem Course.accounts (h : Course done t calls) : Accounts done t calls := by
  induction h with
  | start =>
    refine ⟨Nat.le_refl _, fun _ => rfl, fun i call hcall => ?_, fun i r hr => ?_⟩
    · cases hcall
    · cases hr
  | called result started finished before intact _ ih =>
    exact ih.snoc before.length_steps intact _ _ result started finished
  | @refused done t calls s fault started finished before intact _ ih =>
    refine ih.uncalled s ?_ rfl (Option.some_ne_none _) fun b hb => ?_
    · exact fun hdone => StepRun.not_failed_of_completed hdone ⟨started, finished, rfl⟩
    · rw [intact] at hb
      cases hb
  | @skipped done t calls s b before broken ih =>
    refine ih.uncalled s ?_ rfl ?_ fun b hb => hb
    · have hnot : StepRun.NotRun ⟨s.name, .notRun⟩ := rfl
      exact fun hdone => StepRun.not_ran_of_notRun hnot (.inl hdone)
    · rw [Transcript.skip, broken]
      exact Option.some_ne_none b

/-! ## Verdicts on outputs -/

/-- What becomes of a step whose body returned these outputs: it completes with exactly them if their
names are the declared ones. Otherwise it fails without outputs, and the run ends with what is
objected to in them. -/
structure Judges (o : Outcome) (s : BoundStep m) (r : StepRun) (outputs : Outputs) : Prop where
  named : r.name = s.name
  completed : ∀ recorded : Outputs,
    (∃ started finished, r.result = .completed started finished recorded) ↔
      recorded = outputs ∧ s.Declares outputs
  failed : ¬ s.Declares outputs → r.Failed ∧ r.outputs = .empty ∧
    ∃ fault, s.Objects outputs fault ∧ o.error = some (.stepFailed o.run.id s.name (.fault fault))

/-- A step that completed has handed on what its body returned. -/
theorem Concludes.result_of_completed {s : BoundStep m} {call : Call} {r : StepRun}
    (h : Concludes t s call r) (hdone : r.Completed) : call.result = .ok r.outputs := by
  obtain ⟨_, _, rfl⟩ := h.recorded
  rcases s.conclude_cases call.result with
    ⟨outputs, hresult, hconclude, -⟩ | ⟨trace, hconclude, -⟩
  · rw [hconclude]
    exact hresult
  · rw [hconclude] at hdone
    obtain ⟨_, _, _, hcompleted⟩ := hdone
    cases hcompleted

theorem Concludes.judges {s : BoundStep m} {call : Call} {r : StepRun} {outputs : Outputs}
    (h : Concludes t s call r) (hcall : call.result = .ok outputs) (id : RunId) (name : String)
    (started finished : Instant) : Judges (t.outcome id name started finished) s r outputs := by
  obtain ⟨began, ended, rfl⟩ := h.recorded
  have hbroken := h.broken
  rw [hcall] at hbroken ⊢
  rcases s.conclude_ok_cases outputs with ⟨hconclude, hdeclares⟩ | ⟨fault, hconclude, hobjects⟩
  · rw [hconclude]
    refine ⟨rfl, fun recorded => ?_, fun hnot => absurd hdeclares hnot⟩
    constructor
    · rintro ⟨_, _, hrecorded⟩
      cases hrecorded
      exact ⟨rfl, hdeclares⟩
    · rintro ⟨rfl, -⟩
      exact ⟨_, _, rfl⟩
  · have hended := hbroken _ hconclude
    rw [hconclude]
    refine ⟨rfl, fun recorded => ?_, fun _ => ⟨⟨_, _, rfl⟩, rfl, fault, hobjects, ?_⟩⟩
    · refine iff_of_false ?_ fun hrecorded => hobjects.not_declares hrecorded.2
      rintro ⟨_, _, hrecorded⟩
      cases hrecorded
    · rw [Transcript.outcome, hended]
      rfl

/-- Outputs that were inserted one after another are judged by their names, and under each name the
artifact that was inserted last is recorded. -/
theorem Judges.inserted {o : Outcome} {s : BoundStep m} {r : StepRun}
    {insertions : List (String × Artifact)} (h : Judges o s r (.ofList insertions)) :
    (r.Completed ↔ ∀ name, name ∈ insertions.map Prod.fst ↔ name ∈ s.signature.outputs) ∧
      (r.Completed → ∀ name, r.outputs.find? name = insertions.reverse.lookup name) := by
  have hdeclares : s.Declares (.ofList insertions) ↔
      ∀ name, name ∈ insertions.map Prod.fst ↔ name ∈ s.signature.outputs :=
    forall_congr' fun name => by rw [Dictionary.mem_keys_ofList]
  have hcompleted : r.Completed ↔ s.Declares (.ofList insertions) := by
    constructor
    · rintro ⟨started, finished, recorded, hr⟩
      exact ((h.completed recorded).1 ⟨started, finished, hr⟩).2
    · intro hnames
      obtain ⟨started, finished, hr⟩ := (h.completed _).2 ⟨rfl, hnames⟩
      exact ⟨started, finished, _, hr⟩
  refine ⟨hcompleted.trans hdeclares, ?_⟩
  rintro ⟨started, finished, recorded, hr⟩ name
  obtain ⟨rfl, -⟩ := (h.completed recorded).1 ⟨started, finished, hr⟩
  rw [StepRun.outputs, hr, StepResult.outputs, Dictionary.find?_ofList]

namespace Pipeline

/-- The calls that returned outputs have been judged by them, and every step that completed did so
with the outputs that its body returned. -/
structure ChecksOutputs (p : Pipeline m) (o : Outcome) (calls : List Call) : Prop where
  returned : ∀ (i : Nat) (call : Call) (outputs : Outputs), calls[i]? = some call →
    call.result = .ok outputs → ∃ s r, p.steps[i]? = some s ∧ o.run.steps[i]? = some r ∧
      call.step = s.name ∧ Judges o s r outputs
  inserted : ∀ (i : Nat) (call : Call) (insertions : List (String × Artifact)),
    calls[i]? = some call → call.result = .ok (.ofList insertions) →
      ∃ s r, p.steps[i]? = some s ∧ o.run.steps[i]? = some r ∧
        (r.Completed ↔ ∀ name, name ∈ insertions.map Prod.fst ↔ name ∈ s.signature.outputs) ∧
        (r.Completed → ∀ name, r.outputs.find? name = insertions.reverse.lookup name)
  completed : ∀ (i : Nat) (r : StepRun), o.run.steps[i]? = some r → r.Completed →
    ∃ call, calls[i]? = some call ∧ call.result = .ok r.outputs

theorem checksOutputs_outcome {p : Pipeline m} (h : Accounts p.steps t calls) (id : RunId)
    (started finished : Instant) :
    p.ChecksOutputs (t.outcome id p.name started finished) calls := by
  have hreturned : ∀ (i : Nat) (call : Call) (outputs : Outputs), calls[i]? = some call →
      call.result = .ok outputs → ∃ s r, p.steps[i]? = some s ∧ t.steps[i]? = some r ∧
        call.step = s.name ∧ Judges (t.outcome id p.name started finished) s r outputs := by
    intro i call outputs hcall hresult
    obtain ⟨s, r, hs, hr, hconcludes⟩ := h.called i call hcall
    exact ⟨s, r, hs, hr, hconcludes.named, hconcludes.judges hresult id p.name started finished⟩
  refine ⟨hreturned, fun i call insertions hcall hresult => ?_, fun i r hr hdone => ?_⟩
  · obtain ⟨s, r, hs, hr, -, hjudges⟩ := hreturned i call _ hcall hresult
    exact ⟨s, r, hs, hr, hjudges.inserted⟩
  · have hi : i < calls.length := h.completed i r hr hdone
    have hcall : calls[i]? = some calls[i] := List.getElem?_eq_getElem hi
    obtain ⟨s, r', -, hr', hconcludes⟩ := h.called i _ hcall
    obtain rfl := Option.some.inj (hr.symm.trans hr')
    exact ⟨_, hcall, hconcludes.result_of_completed hdone⟩

/-- In every execution a step completes just if its body returned its declared outputs, and with
exactly these. A step that returned others fails without outputs, for an undeclared name if there is
one and for a missing name otherwise. -/
theorem execute_checks_outputs [Monad m] [LawfulMonad m] (p : Pipeline m) (id : RunId)
    (now : m Instant) :
    Prod.fst <$> p.executeLogged id now = p.execute id now ∧
      SatisfiesM (fun r => r.1.run.id = id ∧ p.ChecksOutputs r.1 r.2) (p.executeLogged id now) := by
  refine ⟨p.erases_execute id now [], ?_⟩
  refine (p.satisfiesM_executeLogged id now).imp ?_
  rintro ⟨o, calls⟩ ⟨t, started, finished, hcourse, rfl⟩
  exact ⟨rfl, checksOutputs_outcome hcourse.accounts id started finished⟩

/-- A step that declares an output twice and makes it twice, and one that makes two outputs which it
does not declare. -/
def generous : Pipeline Id where
  name := "generous"
  steps :=
    [⟨"fit", ⟨⟨[], ["model", "score", "model"]⟩, fun _ => .ok (.ofList
        [("model", .of .int64 1), ("score", .of .int64 9), ("model", .of .int64 2)])⟩, .empty⟩,
      ⟨"report", ⟨⟨[], ["page"]⟩, fun _ => .ok (.ofList
        [("zebra", .of .int64 3), ("apple", .of .int64 4)])⟩, .empty⟩]

/-- The model that is made last is kept, and of the two undeclared outputs the first in order is
reported, before the page that is missing. -/
theorem generous_checks_outputs :
    ∃ o calls r, generous.executeLogged ⟨1⟩ (pure ⟨0⟩) = (o, calls) ∧
      generous.ChecksOutputs o calls ∧
      o.run.steps.map (fun r => r.result.word) = ["completed", "failed"] ∧
      o.run.steps[0]? = some r ∧ r.outputs.find? "model" = some (.of .int64 2) ∧
      o.error = some (.stepFailed ⟨1⟩ "report" (.fault (.undeclaredOutput "report" "apple"))) := by
  have hwords : (generous.executeLogged ⟨1⟩ (pure ⟨0⟩)).1.run.steps.map (fun r => r.result.word) =
      ["completed", "failed"] := by
    decide +kernel
  have herror : (generous.executeLogged ⟨1⟩ (pure ⟨0⟩)).1.error =
      some (.stepFailed ⟨1⟩ "report" (.fault (.undeclaredOutput "report" "apple"))) := by
    decide +kernel
  obtain ⟨-, hchecks⟩ := generous.execute_checks_outputs ⟨1⟩ (pure ⟨0⟩)
  rw [SatisfiesM_Id_eq] at hchecks
  obtain ⟨s, r, hs, hr, hcompleted, hlast⟩ := hchecks.2.inserted 0 _ _ rfl rfl
  obtain rfl := Option.some.inj hs
  refine ⟨_, _, r, rfl, hchecks.2, hwords, hr, ?_, herror⟩
  rw [hlast (hcompleted.2 fun name => Iff.rfl)]
  rfl

end Pipeline

end Tableflow
