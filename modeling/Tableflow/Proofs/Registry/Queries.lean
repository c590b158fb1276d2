import Mathlib
import Tableflow.Proofs.Dictionary
import Tableflow.Proofs.Registry.Refinement

/-!
# Queries of a registry

The queries of a registry read one history, from either end and with tests of their own. They agree
with one another if the identifiers in the history are distinct (`Registry.Consistent`), and these
are among those that were drawn for the runs that were asked for (`Registry.drawnIds`). A run that
was just made is found under its identifier and as the latest one of its pipeline, however few runs
the registry keeps (`Registry.Findable`).

The main statement is `Registry.queries_agree`: this holds of every registry that any requests lead
to.
-/

namespace Tableflow.Registry

variable {m : Type → Type} {r : Registry m} {name : String}

/-! ## Registries in use -/

/-- The identifiers of the runs that some requests make of the pipelines that are there or get
registered: nothing is run under another name, so no identifier is drawn for it. -/
def drawnIds (pipelines : Dictionary (Pipeline m)) : List (Request m) → List RunId
  | [] => []
  | .register p :: rest => drawnIds (pipelines.insert p.name p) rest
  | .run name id :: rest =>
    if pipelines.contains name then id :: drawnIds pipelines rest else drawnIds pipelines rest
  | .clear _ :: rest => drawnIds pipelines rest

/-- Pipelines stand under their own names, and at least one run is kept of each. -/
structure Sound (r : Registry m) : Prop where
  named : ∀ name p, r.pipelines.find? name = some p → p.name = name
  retention_pos : ∀ limit ∈ r.retention, 0 < limit

theorem sound_opened (retention : Option Nat) : Sound (opened retention : Registry m) where
  named _ _ h := by cases retention <;> cases h
  retention_pos := by
    intro limit hlimit
    cases retention with
    | none => cases hlimit
    | some n => exact @pos_of_mem_map_max (some n) limit hlimit

theorem Sound.register (h : r.Sound) (p : Pipeline m) : (r.register p).Sound where
  named name q hq := by
    rw [Registry.register, Dictionary.find?_insert] at hq
    split at hq
    · next hname =>
      obtain rfl := Option.some.inj hq
      exact hname.symm
    · exact h.named name q hq
  retention_pos := h.retention_pos

theorem Sound.record (h : r.Sound) (name : String) (run : Run) : (r.record name run).Sound := by
  rw [Registry.record]
  split
  · exact ⟨h.named, h.retention_pos⟩
  · exact ⟨h.named, h.retention_pos⟩

theorem pipelines_record (r : Registry m) (name : String) (run : Run) :
    (r.record name run).pipelines = r.pipelines := by
  rw [record]
  split <;> rfl

theorem pipeline_eq_ok_iff {p : Pipeline m} :
    r.pipeline name = .ok p ↔ r.pipelines.find? name = some p := by
  rw [pipeline]
  cases r.pipelines.find? name <;> simp

theorem drawnIds_run {p : Pipeline m} (h : r.pipelines.find? name = some p) (id : RunId)
    (rest : List (Request m)) :
    drawnIds r.pipelines (.run name id :: rest) = id :: drawnIds r.pipelines rest := by
  rw [drawnIds, if_pos (Dictionary.contains_iff.2 ⟨p, h⟩)]

theorem drawnIds_run_of_missing (h : r.pipelines.find? name = none) (id : RunId)
    (rest : List (Request m)) :
    drawnIds r.pipelines (.run name id :: rest) = drawnIds r.pipelines rest := by
  rw [drawnIds, if_neg (by rw [Dictionary.contains, h]; exact Bool.false_ne_true)]

/-! ## The identifiers in the history -/

/-- A registry stands where some identifiers have been or will be drawn in turn: first those of its
history, then those for the requests to come. -/
structure Awaits (ids : List RunId) (r : Registry m) (pending : List (Request m)) : Prop where
  sound : r.Sound
  drawn : (r.history.map Run.id ++ drawnIds r.pipelines pending).Sublist ids

variable [Monad m] [LawfulMonad m] {ids : List RunId} {rest : List (Request m)}

/-- Serving a request turns its identifier from one to come into one of the history. -/
theorem Awaits.serve {request : Request m} (h : Awaits ids r (request :: rest)) (now : m Instant) :
    SatisfiesM (fun served => Awaits ids served.2 rest) (serve now r request) := by
  cases request with
  | register p => exact .pure ⟨h.sound.register p, h.drawn⟩
  | clear name =>
    have hsublist : ((r.clearRuns name).1.history.map Run.id).Sublist (r.history.map Run.id) :=
      List.filter_sublist.map _
    exact .pure ⟨⟨h.sound.named, h.sound.retention_pos⟩, (hsublist.append_right _).trans h.drawn⟩
  | run name id =>
    rw [Registry.serve]
    cases hp : r.pipelines.find? name with
    | none =>
      have hmissing : r.pipeline name = .error (.pipelineNotFound name) := by rw [pipeline, hp]
      rw [run_of_missing hmissing, pure_bind]
      exact .pure ⟨h.sound, drawnIds_run_of_missing hp id rest ▸ h.drawn⟩
    | some p =>
      rw [run_of_pipeline (pipeline_eq_ok_iff.2 hp), bind_map_left]
      refine (p.satisfiesM_execute_outcome id now).bind fun o ho => .pure ⟨h.sound.record .., ?_⟩
      have hsublist := (r.history_record_sublist name o.run).map Run.id
      have hdrawn := h.drawn
      rw [drawnIds_run hp, List.append_cons] at hdrawn
      rw [pipelines_record]
      rw [List.map_append, List.map_singleton, ho.1] at hsublist
      exact (hsublist.append_right _).trans hdrawn

/-- Requests to a registry as it is opened leave it sound, with identifiers in its history that
were drawn for them. -/
theorem satisfiesM_serveAll_awaits (now : m Instant) (retention : Option Nat)
    (requests : List (Request m)) :
    SatisfiesM (fun served => Awaits (drawnIds .empty requests) served.2 [])
      (serveAll (Registry.serve now) (opened retention) requests) := by
  refine satisfiesM_serveAll_pending (P := Awaits (drawnIds .empty requests))
    (fun r request rest h => h.serve now) ⟨sound_opened retention, ?_⟩
  cases retention <;> exact .refl _

/-! ## What the queries find -/

/-- The queries of a registry agree with one another. -/
structure Consistent (r : Registry m) : Prop where
  latest : ∀ name run, r.latestRun name = .ok run ↔ (r.runs name).head? = some run
  noLatest : ∀ name fault, r.latestRun name = .error fault ↔
    r.runs name = [] ∧ fault = .runNotFound (.latest name)
  runs : ∀ name, r.runs name = r.allRuns.filter fun run => run.pipeline = name
  byId : ∀ id run, r.runById id = .ok run ↔ run ∈ r.allRuns ∧ run.id = id
  noId : ∀ id fault, r.runById id = .error fault ↔
    (∀ run ∈ r.allRuns, run.id ≠ id) ∧ fault = .runNotFound (.id id)

/-- The run behind a result is found under its identifier and as the latest one of its pipeline. -/
def Findable (name : String) (id : RunId) (ran : Except Fault Run × Registry m) : Prop :=
  ∃ run : Run, run.id = id ∧ run.pipeline = name ∧ run.Behind ran.1 ∧
    ran.2.runById id = .ok run ∧ ran.2.latestRun name = .ok run

omit [Monad m] [LawfulMonad m]

theorem latestRun_eq_head? (r : Registry m) (name : String) :
    r.latestRun name = match (r.runs name).head? with
      | some run => .ok run
      | none => .error (.runNotFound (.latest name)) := by
  rw [runs, List.head?_filter]
  rfl

theorem runById_eq_ok_iff (hids : (r.history.map Run.id).Nodup) {id : RunId} {run : Run} :
    r.runById id = .ok run ↔ run ∈ r.allRuns ∧ run.id = id := by
  rw [allRuns, List.mem_reverse, ← find?_name_eq_some_iff hids, runById]
  cases r.history.find? fun run => run.id = id <;> simp

theorem consistent_of_nodup (hids : (r.history.map Run.id).Nodup) : r.Consistent where
  latest name run := by
    rw [latestRun_eq_head?]
    cases (r.runs name).head? <;> simp
  noLatest name fault := by
    rw [latestRun_eq_head?, ← List.head?_eq_none_iff]
    cases (r.runs name).head? <;> simp [eq_comm]
  runs _ := rfl
  byId _ _ := runById_eq_ok_iff hids
  noId id fault := by
    have hnone : (∀ run ∈ r.allRuns, run.id ≠ id) ↔
        r.history.find? (fun run => run.id = id) = none := by
      simp [allRuns]
    rw [hnone, runById]
    cases r.history.find? fun run => run.id = id <;> simp [eq_comm]

/-- A run that is recorded under its name and an identifier of its own is found at once. -/
theorem Sound.findable_record (h : r.Sound) {run : Run} (hname : run.pipeline = name)
    (hids : ((r.history ++ [run]).map Run.id).Nodup) {result : Except Fault Run}
    (hresult : run.Behind result) :
    Findable name run.id (result, r.record name run) := by
  obtain ⟨older, holder⟩ := r.allRuns_record h.retention_pos name run
  have hkept : ((r.record name run).history.map Run.id).Nodup :=
    hids.sublist ((r.history_record_sublist name run).map _)
  have hmem : run ∈ (r.record name run).allRuns := by
    rw [holder]
    exact List.mem_cons_self
  have hhead : ((r.record name run).runs name).head? = some run := by
    rw [runs, holder, List.filter_cons_of_pos (by simp [hname]), List.head?_cons]
  exact ⟨run, rfl, hname, hresult, (runById_eq_ok_iff hkept).2 ⟨hmem, rfl⟩,
    ((consistent_of_nodup hkept).latest _ _).2 hhead⟩

/-- In every registry that some requests lead to with identifiers of their own, the queries agree,
and a run of a pipeline is found as soon as it has been made. -/
theorem queries_agree [Monad m] [LawfulMonad m] (now : m Instant) (retention : Option Nat)
    (requests : List (Request m)) (hids : (drawnIds .empty requests).Nodup) :
    SatisfiesM (fun served => served.2.Consistent ∧
        ∀ name p id, served.2.pipeline name = .ok p → id ∉ drawnIds .empty requests →
          SatisfiesM (Findable name id) (served.2.run name id now))
      (serveAll (serve now) (opened retention) requests) := by
  refine (satisfiesM_serveAll_awaits now retention requests).imp ?_
  rintro ⟨replies, r⟩ ⟨hsound, hdrawn⟩
  rw [drawnIds, List.append_nil] at hdrawn
  refine ⟨consistent_of_nodup (hids.sublist hdrawn), fun name p id hp hid => ?_⟩
  rw [run_of_pipeline hp]
  refine (p.satisfiesM_execute_outcome id now).map fun {o} ho => ?_
  obtain ⟨rfl, hname, hbehind⟩ := ho
  refine hsound.findable_record
    (hname.trans (hsound.named _ _ (pipeline_eq_ok_iff.1 hp))) ?_ hbehind
  rw [List.map_append, List.map_singleton, ← List.concat_eq_append, List.nodup_concat]
  exact ⟨fun hmem => hid (hdrawn.subset hmem), hids.sublist hdrawn⟩

/-- A registry that was opened for no runs has forgotten the first of two failed runs, and finds a
third one as soon as it is made. -/
theorem halted_queries :
    ∃ p, Blueprint.halted.build = .ok p ∧ (drawnIds .empty (haltedRequests p)).Nodup ∧
      let served := (serveAll (serve (pure ⟨0⟩)) (opened (some 0)) (haltedRequests p)).run
      served.2.Consistent ∧ served.2.allRuns.map Run.id = [⟨3⟩] ∧
        Findable "halted" ⟨4⟩ (served.2.run "halted" ⟨4⟩ (pure ⟨0⟩)).run := by
  have hserved : (Blueprint.halted.build.toOption.map fun p =>
      let served := (serveAll (serve (pure ⟨0⟩)) (opened (some 0)) (haltedRequests p)).run
      (drawnIds .empty (haltedRequests p), served.2.allRuns.map Run.id,
        served.2.pipelines.contains "halted")) = some ([⟨1⟩, ⟨3⟩], [⟨3⟩], true) := by
    cbv
  obtain ⟨p, hbuild, hserved⟩ := Blueprint.exists_build_eq_ok hserved
  obtain ⟨hdrawn, hkept⟩ := Prod.mk.inj hserved
  obtain ⟨hkept, hregistered⟩ := Prod.mk.inj hkept
  have hids : (drawnIds .empty (haltedRequests p)).Nodup := by
    rw [hdrawn]
    decide
  have hfresh : (⟨4⟩ : RunId) ∉ drawnIds .empty (haltedRequests p) := by
    rw [hdrawn]
    decide
  have hagree := queries_agree (pure ⟨0⟩) (some 0) (haltedRequests p) hids
  rw [SatisfiesM_Id_eq] at hagree
  obtain ⟨q, hq⟩ := Dictionary.contains_iff.1 hregistered
  have hfound := hagree.2 "halted" q ⟨4⟩ (pipeline_eq_ok_iff.2 hq) hfresh
  rw [SatisfiesM_Id_eq] at hfound
  exact ⟨p, hbuild, hids, hagree.1, hkept, hfound⟩

end Tableflow.Registry
