import Mathlib.Data.List.Basic
import Tableflow.Registry

/-!
# Histories

What happens to the history of a registry. Dropping the oldest runs of a pipeline leaves the runs of
the others as they are (`filter_dropOldest_of_ne`). Evicting those beyond a limit, read along the
history, drops a run if at least `limit` runs of the same pipeline come after it
(`evictOldest_cons`). Neither recording a run nor clearing the runs of a pipeline touches the runs
of the others (`Registry.filter_allRuns_record`, `Registry.allRuns_clearRuns`).
-/

namespace Tableflow

/-! ## Eviction -/

variable {pipeline : String} {limit : Nat}

@[simp] theorem dropOldest_zero (pipeline : String) (history : List Run) :
    dropOldest pipeline 0 history = history := by
  rw [dropOldest]

@[simp] theorem dropOldest_nil (pipeline : String) (count : Nat) :
    dropOldest pipeline count [] = [] := by
  cases count <;> rw [dropOldest]

theorem dropOldest_cons_self {run : Run} (h : run.pipeline = pipeline) (count : Nat)
    (rest : List Run) :
    dropOldest pipeline (count + 1) (run :: rest) = dropOldest pipeline count rest := by
  rw [dropOldest, if_pos h]

theorem dropOldest_cons_of_ne {run : Run} (h : run.pipeline ≠ pipeline) (count : Nat)
    (rest : List Run) :
    dropOldest pipeline count (run :: rest) = run :: dropOldest pipeline count rest := by
  cases count with
  | zero => simp
  | succ count => rw [dropOldest, if_neg h]

/-- Runs that are told apart from those of the pipeline all stay, in their order. -/
theorem filter_dropOldest_of_ne {select : Run → Bool}
    (hselect : ∀ run, select run = true → run.pipeline ≠ pipeline) (count : Nat)
    (history : List Run) :
    (dropOldest pipeline count history).filter select = history.filter select := by
  induction history generalizing count with
  | nil => simp
  | cons run rest ih =>
    by_cases hrun : run.pipeline = pipeline
    · have hnot : ¬ select run = true := fun h => hselect run h hrun
      cases count with
      | zero => simp
      | succ count => rw [dropOldest_cons_self hrun, ih, List.filter_cons_of_neg hnot]
    · rw [dropOldest_cons_of_ne hrun, List.filter_cons, List.filter_cons, ih]

theorem surplus_cons_self {run : Run} (h : run.pipeline = pipeline) (rest : List Run) :
    surplus pipeline limit (run :: rest) =
      rest.countP (fun run => run.pipeline = pipeline) + 1 - limit := by
  rw [surplus, List.countP_cons_of_pos (p := fun run : Run => run.pipeline = pipeline)
    (decide_eq_true h)]

theorem surplus_cons_of_ne {run : Run} (h : run.pipeline ≠ pipeline) (rest : List Run) :
    surplus pipeline limit (run :: rest) = surplus pipeline limit rest := by
  rw [surplus, surplus, List.countP_cons_of_neg (p := fun run : Run => run.pipeline = pipeline)
    fun he => h (of_decide_eq_true he)]

@[simp] theorem evictOldest_nil : (evictOldest pipeline limit []).1 = [] := by
  rw [evictOldest, dropOldest_nil]

/-- A run is evicted if at least `limit` runs of its pipeline come after it. -/
theorem evictOldest_cons (run : Run) (rest : List Run) :
    (evictOldest pipeline limit (run :: rest)).1 =
      if run.pipeline = pipeline ∧ limit ≤ rest.countP (fun run => run.pipeline = pipeline) then
        (evictOldest pipeline limit rest).1
      else run :: (evictOldest pipeline limit rest).1 := by
  by_cases hrun : run.pipeline = pipeline
  · simp only [evictOldest, surplus_cons_self hrun, hrun, true_and]
    by_cases hlimit : limit ≤ rest.countP fun run => run.pipeline = pipeline
    · have hsurplus : rest.countP (fun run => run.pipeline = pipeline) + 1 - limit =
          surplus pipeline limit rest + 1 := by
        rw [surplus]
        omega
      rw [if_pos hlimit, hsurplus, dropOldest_cons_self hrun]
    · have hsurplus : rest.countP (fun run => run.pipeline = pipeline) + 1 - limit = 0 := by omega
      have hrest : surplus pipeline limit rest = 0 := by
        rw [surplus]
        omega
      rw [if_neg hlimit, hsurplus, hrest, dropOldest_zero, dropOldest_zero]
  · simp only [evictOldest, surplus_cons_of_ne hrun, dropOldest_cons_of_ne hrun, hrun, false_and,
      if_false]

/-- Nothing joins a history that is cut down, and what is left keeps its order. -/
theorem evictOldest_sublist (history : List Run) :
    (evictOldest pipeline limit history).1.Sublist history := by
  induction history with
  | nil => rw [evictOldest_nil]
  | cons run rest ih =>
    rw [evictOldest_cons]
    split
    · exact ih.cons run
    · exact ih.cons_cons run

/-- The runs of other pipelines stay as they are. -/
theorem filter_evictOldest (history : List Run) :
    (evictOldest pipeline limit history).1.filter (fun run => run.pipeline ≠ pipeline) =
      history.filter fun run => run.pipeline ≠ pipeline :=
  filter_dropOldest_of_ne (fun _ h => of_decide_eq_true h) _ history

/-- The latest run is never evicted. -/
theorem evictOldest_concat (hlimit : 0 < limit) (history : List Run) (run : Run) :
    ∃ older, (evictOldest pipeline limit (history ++ [run])).1 = older ++ [run] := by
  induction history with
  | nil =>
    rw [List.nil_append, evictOldest_cons, evictOldest_nil]
    refine ⟨[], if_neg ?_⟩
    rintro ⟨-, hle⟩
    exact absurd hle (Nat.not_le.2 hlimit)
  | cons first rest ih =>
    obtain ⟨older, holder⟩ := ih
    rw [List.cons_append, evictOldest_cons, holder]
    split
    · exact ⟨older, rfl⟩
    · exact ⟨first :: older, rfl⟩

/-! ## Recording and clearing -/

namespace Registry

variable {m : Type → Type}

theorem history_record_sublist (r : Registry m) (name : String) (run : Run) :
    (r.record name run).history.Sublist (r.history ++ [run]) := by
  rw [record]
  cases r.retention with
  | none => exact .refl _
  | some limit => exact evictOldest_sublist _

/-- Recording a run under its own name leaves the runs of the other names as they are. -/
theorem filter_allRuns_record (r : Registry m) {name : String} {run : Run}
    (h : run.pipeline = name) :
    (r.record name run).allRuns.filter (fun other => other.pipeline ≠ name) =
      r.allRuns.filter fun other => other.pipeline ≠ name := by
  rw [allRuns, allRuns, List.filter_reverse, List.filter_reverse]
  refine congrArg List.reverse ?_
  have happend : (r.history ++ [run]).filter (fun other => other.pipeline ≠ name) =
      r.history.filter fun other => other.pipeline ≠ name := by
    simp [h]
  rw [record]
  cases r.retention with
  | none => exact happend
  | some limit => exact (filter_evictOldest _).trans happend

/-- A run that is recorded is the latest one. -/
theorem allRuns_record (r : Registry m) (hlimit : ∀ limit ∈ r.retention, 0 < limit) (name : String)
    (run : Run) : ∃ older, (r.record name run).allRuns = run :: older := by
  rw [allRuns, record]
  cases hretention : r.retention with
  | none => exact ⟨r.history.reverse, List.reverse_concat⟩
  | some limit =>
    obtain ⟨older, holder⟩ := evictOldest_concat (hlimit limit hretention) r.history run
    exact ⟨older.reverse, (congrArg List.reverse holder).trans List.reverse_concat⟩

theorem allRuns_clearRuns (r : Registry m) (name : String) :
    (r.clearRuns name).1.allRuns = r.allRuns.filter fun run => run.pipeline ≠ name :=
  List.filter_reverse.symm

/-- Clearing removes all runs of a pipeline and counts them. -/
theorem clearRuns_removed (r : Registry m) (name : String) :
    (r.clearRuns name).2 = (r.runs name).length := by
  have hsplit := List.length_eq_length_filter_add (l := r.history) fun run => run.pipeline = name
  simp only [← decide_not] at hsplit
  rw [runs, allRuns, List.filter_reverse, List.length_reverse, clearRuns, hsplit,
    Nat.add_sub_cancel]

end Registry

end Tableflow
