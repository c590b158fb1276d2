import Tableflow.Proofs.Registry.History

/-!
# Eviction

Evicting the oldest runs of a pipeline beyond a limit takes out of a history exactly the first ones
of that pipeline, as many as there are too many, wherever they stand among the runs of other
pipelines (`EvictsOldest`). A second eviction finds nothing to take out, and evictions for two
pipelines do not depend on which of them comes first.

All of it is told of `dropOldest`, which takes out a number of runs of a pipeline, by induction on
the history with that number left open.
-/

namespace Tableflow

/-! ## Dropping a number of runs -/

/-- How many runs of a pipeline stand in front of a place of a history. -/
def runsBefore (pipeline : String) (history : List Run) (place : Nat) : Nat :=
  (history.take place).countP fun run => run.pipeline = pipeline

variable {pipeline other : String}

theorem runsBefore_zero (pipeline : String) (history : List Run) :
    runsBefore pipeline history 0 = 0 := rfl

theorem runsBefore_cons_succ (pipeline : String) (run : Run) (rest : List Run) (place : Nat) :
    runsBefore pipeline (run :: rest) (place + 1) =
      runsBefore pipeline rest place + if run.pipeline = pipeline then 1 else 0 := by
  simp [runsBefore, List.countP_cons]

/-- The runs that go are those of the pipeline with fewer than the number of them in front. -/
theorem dropOldest_eq_map_filter (pipeline : String) (count : Nat) (history : List Run) :
    dropOldest pipeline count history =
      (history.zipIdx.filter fun entry =>
        ¬ (entry.1.pipeline = pipeline ∧ runsBefore pipeline history entry.2 < count)).map
          Prod.fst := by
  induction history generalizing count with
  | nil => simp
  | cons run rest ih =>
    rw [List.zipIdx_cons, List.zipIdx_succ, List.filter_cons, List.filter_map]
    by_cases hrun : run.pipeline = pipeline
    · cases count with
      | zero => simp [Function.comp_def]
      | succ count =>
        rw [dropOldest_cons_self hrun, ih]
        simp [Function.comp_def, runsBefore_cons_succ, runsBefore_zero, hrun]
    · rw [dropOldest_cons_of_ne hrun, ih]
      simp [Function.comp_def, runsBefore_cons_succ, hrun]

/-- Of the runs of the pipeline the first ones go. -/
theorem filter_dropOldest_self (pipeline : String) (count : Nat) (history : List Run) :
    (dropOldest pipeline count history).filter (fun run => run.pipeline = pipeline) =
      (history.filter fun run => run.pipeline = pipeline).drop count := by
  induction history generalizing count with
  | nil => simp
  | cons run rest ih =>
    by_cases hrun : run.pipeline = pipeline
    · rw [List.filter_cons_of_pos (by simpa using hrun)]
      cases count with
      | zero => simp [hrun]
      | succ count => rw [dropOldest_cons_self hrun, ih, List.drop_succ_cons]
    · rw [dropOldest_cons_of_ne hrun, List.filter_cons_of_neg (by simpa using hrun),
        List.filter_cons_of_neg (by simpa using hrun), ih]

/-- Dropping runs of two pipelines does not depend on which of them comes first. -/
theorem dropOldest_comm (h : other ≠ pipeline) (count count' : Nat) (history : List Run) :
    dropOldest other count' (dropOldest pipeline count history) =
      dropOldest pipeline count (dropOldest other count' history) := by
  induction history generalizing count count' with
  | nil => simp
  | cons run rest ih =>
    -- the first run counts for one of the two pipelines at most, and the other one keeps it
    by_cases hrun : run.pipeline = pipeline
    · have hother : run.pipeline ≠ other := hrun ▸ h.symm
      cases count with
      | zero => simp
      | succ count =>
        rw [dropOldest_cons_self hrun, dropOldest_cons_of_ne hother, dropOldest_cons_self hrun, ih]
    · rw [dropOldest_cons_of_ne hrun]
      by_cases hother : run.pipeline = other
      · cases count' with
        | zero => simp [dropOldest_cons_of_ne hrun]
        | succ count' => rw [dropOldest_cons_self hother, dropOldest_cons_self hother, ih]
      · rw [dropOldest_cons_of_ne hother, dropOldest_cons_of_ne hother, dropOldest_cons_of_ne hrun,
          ih]

theorem countP_dropOldest_self (pipeline : String) (count : Nat) (history : List Run) :
    (dropOldest pipeline count history).countP (fun run => run.pipeline = pipeline) =
      history.countP (fun run => run.pipeline = pipeline) - count := by
  rw [List.countP_eq_length_filter, filter_dropOldest_self, List.length_drop,
    List.countP_eq_length_filter]

theorem countP_dropOldest_of_ne (h : other ≠ pipeline) (count : Nat) (history : List Run) :
    (dropOldest pipeline count history).countP (fun run => run.pipeline = other) =
      history.countP fun run => run.pipeline = other := by
  have hselect : ∀ run : Run, decide (run.pipeline = other) = true → run.pipeline ≠ pipeline :=
    fun run hrun => of_decide_eq_true hrun ▸ h
  rw [List.countP_eq_length_filter, filter_dropOldest_of_ne hselect, List.countP_eq_length_filter]

theorem length_dropOldest (pipeline : String) (count : Nat) (history : List Run) :
    (dropOldest pipeline count history).length +
        min count (history.countP fun run => run.pipeline = pipeline) = history.length := by
  have hsplit (runs : List Run) : runs.length =
      runs.countP (fun run => run.pipeline = pipeline) +
        (runs.filter fun run => run.pipeline ≠ pipeline).length := by
    rw [← List.countP_eq_length_filter]
    simpa using List.length_eq_countP_add_countP (l := runs) fun run => run.pipeline = pipeline
  rw [hsplit history, hsplit (dropOldest ..), countP_dropOldest_self,
    filter_dropOldest_of_ne fun run hrun => of_decide_eq_true hrun]
  omega

/-! ## Dropping the surplus -/

/-- What is left of a history, with the number of runs taken out, where the runs of a pipeline
beyond a limit went. -/
structure EvictsOldest (pipeline : String) (limit : Nat) (history : List Run)
    (evicted : List Run × Nat) : Prop where
  removed : evicted.2 = history.countP (fun run => run.pipeline = pipeline) - limit
  /-- A run is taken out if it is one of the pipeline with fewer than that number in front. -/
  left : evicted.1 =
    (history.zipIdx.filter fun entry =>
      ¬ (entry.1.pipeline = pipeline ∧ runsBefore pipeline history entry.2 < evicted.2)).map
        Prod.fst
  own : evicted.1.filter (fun run => run.pipeline = pipeline) =
    (history.filter fun run => run.pipeline = pipeline).drop evicted.2
  others : evicted.1.filter (fun run => run.pipeline ≠ pipeline) =
    history.filter fun run => run.pipeline ≠ pipeline
  length : evicted.1.length + evicted.2 = history.length

theorem evictsOldest (pipeline : String) (limit : Nat) (history : List Run) :
    EvictsOldest pipeline limit history (evictOldest pipeline limit history) where
  removed := rfl
  left := dropOldest_eq_map_filter ..
  own := filter_dropOldest_self ..
  others := filter_evictOldest history
  length := by
    have hle : surplus pipeline limit history ≤
        history.countP fun run => run.pipeline = pipeline := Nat.sub_le ..
    have hlength := length_dropOldest pipeline (surplus pipeline limit history) history
    rwa [Nat.min_eq_left hle] at hlength

theorem surplus_evictOldest_self (pipeline : String) (limit : Nat) (history : List Run) :
    surplus pipeline limit (evictOldest pipeline limit history).1 = 0 := by
  rw [surplus, evictOldest, countP_dropOldest_self, surplus]
  omega

theorem surplus_evictOldest_of_ne (h : other ≠ pipeline) (limit limit' : Nat)
    (history : List Run) :
    surplus other limit' (evictOldest pipeline limit history).1 = surplus other limit' history := by
  rw [surplus, evictOldest, countP_dropOldest_of_ne h, surplus]

/-- Evicting the oldest runs of a pipeline takes out exactly the first ones that are too many. Doing
it again takes out nothing. Evicting those of another pipeline as well takes out as many of them as
it does alone, and leaves the same history whichever of the two comes first. -/
theorem evictOldest_exact (pipeline : String) (limit : Nat) (history : List Run) :
    let evicted := evictOldest pipeline limit history
    EvictsOldest pipeline limit history evicted ∧
      evictOldest pipeline limit evicted.1 = (evicted.1, 0) ∧
      ∀ other limit', other ≠ pipeline →
        let before := evictOldest other limit' history
        evictOldest other limit' evicted.1 =
          ((evictOldest pipeline limit before.1).1, before.2) := by
  intro evicted
  refine ⟨evictsOldest .., ?_, fun other limit' hother => ?_⟩
  · rw [evictOldest, surplus_evictOldest_self, dropOldest_zero]
  · intro before
    refine Prod.ext ?_ (surplus_evictOldest_of_ne hother limit limit' history)
    change dropOldest other (surplus other limit' evicted.1) evicted.1 =
      dropOldest pipeline (surplus pipeline limit before.1) before.1
    rw [surplus_evictOldest_of_ne hother, surplus_evictOldest_of_ne hother.symm]
    exact dropOldest_comm hother ..

/-- The runs of three pipelines among one another, numbered as they were made. -/
def mixedRuns : List Run :=
  [("oven", 1), ("kiln", 2), ("oven", 3), ("stove", 4), ("kiln", 5), ("oven", 6), ("oven", 7)].map
    fun (pipeline, number) => ⟨⟨number⟩, pipeline, ⟨0⟩, ⟨0⟩, [], none⟩

/-- Of four and two runs the limits take out two and one. -/
theorem mixedRuns_evicted :
    let evicted := evictOldest "oven" 2 mixedRuns
    EvictsOldest "oven" 2 mixedRuns evicted ∧
      (evicted.1.map Run.id, evicted.2) = ([⟨2⟩, ⟨4⟩, ⟨5⟩, ⟨6⟩, ⟨7⟩], 2) ∧
      evictOldest "oven" 2 evicted.1 = (evicted.1, 0) ∧ "kiln" ≠ "oven" ∧
      evictOldest "kiln" 1 evicted.1 =
        ((evictOldest "oven" 2 (evictOldest "kiln" 1 mixedRuns).1).1,
          (evictOldest "kiln" 1 mixedRuns).2) ∧
      ((evictOldest "kiln" 1 evicted.1).1.map Run.id, (evictOldest "kiln" 1 evicted.1).2) =
        ([⟨4⟩, ⟨5⟩, ⟨6⟩, ⟨7⟩], 1) := by
  obtain ⟨hexact, hagain, hother⟩ := evictOldest_exact "oven" 2 mixedRuns
  have hne : "kiln" ≠ "oven" := by decide
  exact ⟨hexact, by decide, hagain, hne, hother "kiln" 1 hne, by decide⟩

end Tableflow
