import Tableflow.Proofs.Execution.Outputs
import Tableflow.Proofs.Fault

/-!
# Failures of bodies

What a body fails with is not changed on its way out: it is the source of the fault that ends the
run, with all texts of its chain and with the fault under its contexts, and the step whose body it
was is blamed, whatever step a fault further down names (`Outcome.Relays`).

The main statement is `Pipeline.errors_keep_identity`: faults and other errors survive being wrapped
and converted back, and so they do in a run.
-/

namespace Tableflow

variable {m : Type → Type}

/-- A run ends with what the body of a step failed with. -/
structure Outcome.Relays (o : Outcome) (step : String) (trace : Trace) : Prop where
  source : ∃ source, o.error = some (.stepFailed o.run.id step source) ∧
    source.chain = trace.chain ∧ source.fault? = trace.fault?
  /-- The fault of the run adds its own text to the chain and no other. -/
  chain : ∀ fault, o.error = some fault → (Trace.fault fault).chain = fault.message :: trace.chain
  attributed : ∀ fault, o.error = some fault → fault.step? = some step
  failed : ∃ r ∈ o.run.steps, r.name = step ∧ r.Failed
  recorded : o.run.failure = some ⟨step, trace.alternate⟩

theorem Concludes.relays {t : Transcript} {s : BoundStep m} {call : Call} {r : StepRun}
    (h : Concludes t s call r) (hr : r ∈ t.steps) {trace : Trace} (hcall : call.result = .error trace)
    (id : RunId) (name : String) (started finished : Instant) :
    (t.outcome id name started finished).Relays call.step trace := by
  have hconclude : s.conclude call.result = .error trace := by
    rw [hcall]
    rfl
  have hbroken : t.breakdown = some ⟨call.step, trace⟩ := by
    rw [h.named]
    exact h.broken trace hconclude
  have herror : (t.outcome id name started finished).error =
      some (.stepFailed id call.step trace) := by
    rw [Transcript.outcome, hbroken]
    rfl
  refine ⟨⟨trace, herror, rfl, rfl⟩, fun fault hfault => ?_, fun fault hfault => ?_, ⟨r, hr, ?_⟩, ?_⟩
  · obtain rfl := Option.some.inj (herror.symm.trans hfault)
    rfl
  · obtain rfl := Option.some.inj (herror.symm.trans hfault)
    rfl
  · obtain ⟨began, ended, rfl⟩ := h.recorded
    rw [hconclude]
    exact ⟨h.named.symm, began, ended, rfl⟩
  · rw [Transcript.outcome, hbroken]
    rfl

namespace Pipeline

/-- A fault comes back from under any contexts, and a trace that was not made of one with its whole
chain; to wrap and convert what came back once more changes nothing. In a run, whatever the body of
a step fails with is relayed as it is. -/
theorem errors_keep_identity [Monad m] [LawfulMonad m] (p : Pipeline m) (id : RunId)
    (now : m Instant) :
    (∀ fault contexts, Fault.ofTrace ((Trace.fault fault).withContexts contexts) = fault) ∧
    (∀ (trace : Trace) (contexts : List String), trace.fault? = none → ∃ source,
      Fault.ofTrace (trace.withContexts contexts) = .handlerError source ∧
        source.chain = contexts.reverse ++ trace.chain ∧ source.fault? = none) ∧
    (∀ trace : Trace, trace.fault? = none ∨
      ∃ fault contexts, trace = (Trace.fault fault).withContexts contexts) ∧
    (∀ trace contexts, Fault.ofTrace ((Trace.fault (Fault.ofTrace trace)).withContexts contexts) =
      Fault.ofTrace trace) ∧
    Prod.fst <$> p.executeLogged id now = p.execute id now ∧
    SatisfiesM (fun r => r.1.run.id = id ∧ ∀ call ∈ r.2, ∀ trace, call.result = .error trace →
      r.1.Relays call.step trace) (p.executeLogged id now) := by
  refine ⟨Fault.ofTrace_fault, fun trace contexts hforeign => ?_, fun trace => ?_,
    fun trace contexts => Fault.ofTrace_fault _ contexts, p.erases_execute id now [], ?_⟩
  · exact ⟨_, Fault.ofTrace_of_foreign hforeign contexts, trace.chain_withContexts contexts,
      (trace.fault?_withContexts contexts).trans hforeign⟩
  · cases hfault : trace.fault? with
    | none => exact .inl rfl
    | some fault => exact .inr ⟨fault, Trace.fault?_eq_some_iff.1 hfault⟩
  · refine (p.satisfiesM_executeLogged id now).imp ?_
    rintro ⟨o, calls⟩ ⟨t, started, finished, hcourse, rfl⟩
    refine ⟨rfl, fun call hmem trace hcall => ?_⟩
    obtain ⟨i, hi, rfl⟩ := List.mem_iff_getElem.1 hmem
    obtain ⟨s, r, -, hr, hconcludes⟩ :=
      hcourse.accounts.called i _ (List.getElem?_eq_getElem hi)
    exact hconcludes.relays (List.mem_of_getElem? hr) hcall id p.name started finished

/-- What a step fails with that has run another pipeline, of which a step has no input of a name. -/
def innerFailure : Trace :=
  .withContexts ["while fitting", "in the outer run"] (.fault (.stepFailed ⟨7⟩ "fit"
    (.context "reading" (.fault (.inputNotFound "parse" "file")))))

/-- A pipeline of a step that has run another one in vain, and of one behind it. -/
def nesting : Pipeline Id where
  name := "nesting"
  steps :=
    [⟨"tune", ⟨⟨[], ["model"]⟩, fun _ => .error innerFailure⟩, .empty⟩,
      ⟨"report", ⟨⟨[], []⟩, fun _ => .ok .empty⟩, .empty⟩]

/-- The run is blamed on the outer step, and the failed step of the inner run is found below. A text
under a context is held with both, also after one more round. -/
theorem nesting_keeps_identity :
    (∃ o calls source, nesting.executeLogged ⟨1⟩ (pure ⟨0⟩) = (o, calls) ∧
      o.error = some (.stepFailed ⟨1⟩ "tune" source) ∧ source.chain = innerFailure.chain ∧
      (Fault.ofTrace source).step? = some "fit" ∧
      ∀ fault, o.error = some fault → fault.step? = some "tune") ∧
    ∃ held, Fault.ofTrace (.fault (Fault.ofTrace (.withContexts ["saving"] (.text "no disk")))) =
      .handlerError held ∧ held.chain = ["saving", "no disk"] := by
  obtain ⟨-, hforeign, -, hagain, -, hrelays⟩ := nesting.errors_keep_identity ⟨1⟩ (pure ⟨0⟩)
  rw [SatisfiesM_Id_eq] at hrelays
  have htune := hrelays.2 _ List.mem_cons_self innerFailure rfl
  obtain ⟨source, herror, hchain, hfault⟩ := htune.source
  obtain ⟨held, hheld, hkept, -⟩ := hforeign (.text "no disk") ["saving"] rfl
  have hfit : (Fault.ofTrace source).step? = some "fit" := by
    rw [Fault.ofTrace, hfault]
    rfl
  exact ⟨⟨_, _, source, rfl, herror, hchain, hfit, htune.attributed⟩, held,
    (hagain _ []).trans hheld, hkept⟩

end Pipeline

end Tableflow
