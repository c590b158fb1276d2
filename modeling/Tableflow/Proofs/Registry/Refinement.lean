import Mathlib
import Tableflow.Proofs.Execution.DataFlow
import Tableflow.Proofs.Registry.Log

/-!
# The registry is a run log

Serving requests with a registry gives the same replies as keeping a log of all that was done, and
leads to the registry that the log stands for (`Registry.serveAll_refines_log`). What such a
registry shows of its runs, and what a further request does to them, is `Registry.Faithful`.
-/

namespace Tableflow

variable {m : Type → Type}

/-! ## Results of executions -/

/-- A run is the one behind a result: it is handed back, or it failed. -/
def Run.Behind (run : Run) : Except Fault Run → Prop
  | .ok handed => handed = run ∧ run.status = .completed
  | .error fault => (∃ step trace, fault = .stepFailed run.id step trace) ∧ run.status = .failed

theorem Transcript.behind_outcome (t : Transcript) (id : RunId) (name : String)
    (started finished : Instant) :
    (t.outcome id name started finished).run.Behind
      (t.outcome id name started finished).toExcept := by
  rw [outcome, Outcome.toExcept]
  cases t.breakdown with
  | none => exact ⟨rfl, rfl⟩
  | some b => exact ⟨⟨b.step, b.trace, rfl⟩, rfl⟩

variable [Monad m] [LawfulMonad m]

/-- An execution hands back a record under the name of the pipeline and the given identifier, and
it is the one behind the result. -/
theorem Pipeline.satisfiesM_execute_outcome (p : Pipeline m) (id : RunId) (now : m Instant) :
    SatisfiesM (fun o => o.run.id = id ∧ o.run.pipeline = p.name ∧ o.run.Behind o.toExcept)
      (p.execute id now) := by
  refine (p.satisfiesM_execute id now (answers_true p.steps)).imp ?_
  rintro o ⟨t, calls, started, finished, -, -, rfl⟩
  exact ⟨rfl, rfl, t.behind_outcome ..⟩

/-! ## One request -/

variable {limit : Option Nat} {log : Log m}

namespace Log

/-- A log keeps the runs under the names that their records carry. -/
theorem satisfiesM_serve (limit : Option Nat) (now : m Instant) (h : ∀ e ∈ log, e.Named)
    (request : Request m) :
    SatisfiesM (fun served => ∀ e ∈ served.2, e.Named) (log.serve limit now request) := by
  cases request with
  | register p => exact .pure (List.forall_mem_append.2 ⟨h, List.forall_mem_singleton.2 trivial⟩)
  | clear name =>
    exact .pure (List.forall_mem_append.2 ⟨h, List.forall_mem_singleton.2 trivial⟩)
  | run name id =>
    rw [serve]
    cases hp : log.pipeline? name with
    | none => exact .pure h
    | some p =>
      refine (p.satisfiesM_execute_outcome id now).bind fun o ho => .pure ?_
      refine List.forall_mem_append.2 ⟨h, List.forall_mem_singleton.2 ?_⟩
      exact ho.2.1.trans (name_of_pipeline? hp)

end Log

namespace Registry

/-- A registry serves a request as the log does that it stands for. -/
theorem serve_registry (limit : Option Nat) (now : m Instant) (h : ∀ e ∈ log, e.Named)
    (request : Request m) :
    serve now (log.registry limit) request =
      Prod.map id (Log.registry limit) <$> log.serve limit now request := by
  cases request with
  | register p => rw [serve, Log.serve, map_pure, Prod.map_apply, Log.registry_registered, id]
  | clear name =>
    rw [serve, Log.serve, map_pure, Prod.map_apply, Log.registry_cleared h, clearRuns_removed,
      Log.runs_registry h, List.length_reverse, id]
  | run name id =>
    rw [serve, Log.serve]
    cases hp : log.pipeline? name with
    | none => simp [Log.run_of_unregistered now hp]
    | some p =>
      rw [Log.run_of_registered now hp, bind_map_left, map_bind]
      refine bind_congr_of_satisfiesM (p.satisfiesM_execute_outcome id now) fun o ho => ?_
      have hname : o.run.pipeline = name := ho.2.1.trans (Log.name_of_pipeline? hp)
      simp [Log.registry_ran h hname]

/-! ## All requests -/

/-- What a registry shows of the runs in a log, and what a further request does to them. -/
structure Faithful (now : m Instant) (limit : Option Nat) (log : Log m) (r : Registry m) :
    Prop where
  runs : ∀ name, r.runs name = (lastRuns limit (log.produced name)).reverse
  allRuns : r.allRuns = (log.retained limit).reverse
  cleared : ∀ name, (r.clearRuns name).2 = (r.runs name).length ∧
    (r.clearRuns name).1.allRuns = r.allRuns.filter fun run => run.pipeline ≠ name
  registered : ∀ p, (r.register p).allRuns = r.allRuns
  unregistered : ∀ name id, log.pipeline? name = none →
    r.run name id now = pure (.error (.pipelineNotFound name), r)
  /-- Running a pipeline leaves the runs of the others as they are, in their order. -/
  apart : ∀ name id, SatisfiesM (fun ran => ran.2.allRuns.filter (fun run => run.pipeline ≠ name) =
    r.allRuns.filter fun run => run.pipeline ≠ name) (r.run name id now)
  /-- A run is recorded before its result is handed back, be it a failure. -/
  recorded : ∀ name id p, log.pipeline? name = some p →
    SatisfiesM (fun ran => ∃ run older, ran.2.allRuns = run :: older ∧ run.id = id ∧
      run.pipeline = name ∧ run.Behind ran.1) (r.run name id now)

theorem faithful_registry (now : m Instant) (h : ∀ e ∈ log, e.Named)
    (hlimit : ∀ n ∈ limit, 0 < n) : Faithful now limit log (log.registry limit) where
  runs name := Log.runs_registry h limit name
  allRuns := rfl
  cleared name := ⟨clearRuns_removed .., allRuns_clearRuns ..⟩
  registered _ := rfl
  unregistered _ id hname := Log.run_of_unregistered now hname id
  apart name id := by
    cases hp : log.pipeline? name with
    | none =>
      rw [Log.run_of_unregistered now hp]
      exact .pure rfl
    | some p =>
      rw [Log.run_of_registered now hp]
      refine (p.satisfiesM_execute_outcome id now).map fun {o} ho => ?_
      exact filter_allRuns_record _ (ho.2.1.trans (Log.name_of_pipeline? hp))
  recorded name id p hp := by
    rw [Log.run_of_registered now hp]
    refine (p.satisfiesM_execute_outcome id now).map fun {o} ho => ?_
    obtain ⟨older, holder⟩ := allRuns_record (log.registry limit) hlimit name o.run
    exact ⟨o.run, older, holder, ho.1, ho.2.1.trans (Log.name_of_pipeline? hp), ho.2.2⟩

/-- A limit is never zero, whatever a registry is opened with. -/
theorem pos_of_mem_map_max {retention : Option Nat} :
    ∀ n ∈ retention.map fun n => max n 1, 0 < n := by
  intro n hn
  obtain ⟨k, -, rfl⟩ := Option.map_eq_some_iff.1 hn
  exact Nat.lt_of_lt_of_le Nat.one_pos (Nat.le_max_right k 1)

/-- A registry that is opened with some retention serves all requests as a log does, and always
stands for the log of what was done with it. -/
theorem serveAll_refines_log (now : m Instant) (retention : Option Nat)
    (requests : List (Request m)) :
    let limit := retention.map fun n => max n 1
    serveAll (serve now) (opened retention) requests =
        Prod.map id (Log.registry limit) <$> serveAll (Log.serve limit now) [] requests ∧
      SatisfiesM (fun served => Faithful now limit served.2 (Log.registry limit served.2))
        (serveAll (Log.serve limit now) [] requests) := by
  intro limit
  have hnil : ∀ e ∈ ([] : Log m), e.Named := fun e he => nomatch he
  have hkeep : ∀ log : Log m, (∀ e ∈ log, e.Named) → ∀ request : Request m,
      SatisfiesM (fun served => ∀ e ∈ served.2, e.Named) (log.serve limit now request) :=
    fun log h request => Log.satisfiesM_serve limit now h request
  refine ⟨?_, ?_⟩
  · rw [← Log.registry_nil]
    exact serveAll_eq_map hkeep (fun log h => serve_registry limit now h) hnil requests
  · exact (satisfiesM_serveAll hkeep hnil requests).imp fun h =>
      faithful_registry now h pos_of_mem_map_max

/-- Requests to run a pipeline twice, and an unknown one in between. -/
def haltedRequests (p : Pipeline Id) : List (Request Id) :=
  [.register p, .run "halted" ⟨1⟩, .run "other" ⟨2⟩, .run "halted" ⟨3⟩]

/-- Of two failed runs a registry that was opened for none keeps the latest one. -/
theorem halted_refines_log :
    ∃ p log, Blueprint.halted.build = .ok p ∧
      let served := (serveAll (serve (pure ⟨0⟩)) (opened (some 0)) (haltedRequests p)).run
      served.2 = Log.registry (some 1) log ∧ Faithful (pure ⟨0⟩) (some 1) log served.2 ∧
        (log.produced "halted").map Run.id = [⟨1⟩, ⟨3⟩] ∧
        served.2.allRuns.map Run.id = [⟨3⟩] := by
  have hids : (Blueprint.halted.build.toOption.map fun p =>
      (((serveAll (Log.serve (some 1) (pure ⟨0⟩)) [] (haltedRequests p)).run.2.produced
          "halted").map Run.id,
        (serveAll (serve (pure ⟨0⟩)) (opened (some 0)) (haltedRequests p)).run.2.allRuns.map
          Run.id)) = some ([⟨1⟩, ⟨3⟩], [⟨3⟩]) := by
    cbv
  obtain ⟨p, hbuild, hids⟩ := Blueprint.exists_build_eq_ok hids
  obtain ⟨hproduced, hkept⟩ := Prod.mk.inj hids
  obtain ⟨hrefines, hfaithful⟩ := serveAll_refines_log (pure ⟨0⟩) (some 0) (haltedRequests p)
  rw [SatisfiesM_Id_eq] at hfaithful
  have hregistry := congrArg (fun served => (Id.run served).2) hrefines
  refine ⟨p, _, hbuild, hregistry, ?_, hproduced, hkept⟩
  rw [hregistry]
  exact hfaithful

end Registry

end Tableflow
