import Mathlib.Data.List.DropRight
import Tableflow.Proofs.Dictionary
import Tableflow.Proofs.Registry.History
import Tableflow.Proofs.Registry.Service

/-!
# Run logs

A log is the list of all that was done with a registry, the oldest first, and nothing is ever taken
out of it. The runs that were made under a name since its runs were last cleared are
`Log.produced`, and a run is still held (`Log.Holds`) if its name was not cleared later and, under a
limit, fewer runs than that were made under it later.

`Log.registry` is the registry that a log stands for. Its history restricted to a name is the last
of the produced runs up to the limit (`Log.filter_retained`), and a further event does to it what
registering, recording and clearing do (`Log.retained_registered`, `Log.retained_ran`,
`Log.retained_cleared`).
-/

namespace Tableflow

variable {m : Type → Type}

/-! ## Events -/

/-- Something that was done with a registry. -/
inductive Event (m : Type → Type)
  | registered (p : Pipeline m)
  | ran (name : String) (run : Run)
  | cleared (name : String)

namespace Event

/-- The pipeline that was registered. -/
def pipeline? : Event m → Option (Pipeline m)
  | .registered p => some p
  | _ => none

/-- The run that was made, if it was made under a name. -/
def run? (name : String) : Event m → Option Run
  | .ran other run => if other = name then some run else none
  | _ => none

/-- Whether the runs of a name were cleared. -/
def clears (name : String) : Event m → Bool
  | .cleared other => other = name
  | _ => false

/-- The record of a run carries the name under which the run was made. -/
def Named : Event m → Prop
  | .ran name run => run.pipeline = name
  | _ => True

section

variable {name other : String} {p : Pipeline m} {run : Run}

@[simp] theorem run?_registered : (registered p).run? name = none := rfl

@[simp] theorem run?_ran :
    (ran (m := m) other run).run? name = if other = name then some run else none := rfl

@[simp] theorem run?_cleared : (cleared (m := m) other).run? name = none := rfl

@[simp] theorem clears_registered : (registered p).clears name = false := rfl

@[simp] theorem clears_ran : (ran (m := m) other run).clears name = false := rfl

@[simp] theorem clears_cleared : (cleared (m := m) other).clears name = decide (other = name) := rfl

end

theorem run?_of_clears {e : Event m} {name : String} (h : e.clears name = true) :
    e.run? name = none := by
  cases e with
  | registered | ran => cases h
  | cleared => rfl

end Event

/-! ## Logs -/

/-- All that was done with a registry, the oldest first. -/
abbrev Log (m : Type → Type) := List (Event m)

/-- The last runs of a list up to a limit. -/
def lastRuns (limit : Option Nat) (runs : List Run) : List Run :=
  limit.elim runs fun n => runs.rtake n

namespace Log

/-- The pipeline that was last registered under a name. -/
def pipeline? (name : String) (log : Log m) : Option (Pipeline m) :=
  (log.filterMap Event.pipeline?).reverse.find? fun p => p.name = name

/-- The runs that were made under a name since its runs were last cleared, the oldest first. -/
def produced (name : String) (log : Log m) : List Run :=
  (log.rtakeWhile fun e => !e.clears name).filterMap (Event.run? name)

/-- The runs of a name were not cleared by any of some later events. -/
def Uncleared (name : String) (later : Log m) : Prop := ∀ e ∈ later, e.clears name = false

instance (name : String) (later : Log m) : Decidable (Uncleared name later) :=
  inferInstanceAs (Decidable (∀ e ∈ later, _))

/-- A run under a name is still held after some later events. -/
def Holds (limit : Option Nat) (name : String) (later : Log m) : Prop :=
  Uncleared name later ∧ ∀ n ∈ limit, (produced name later).length < n

instance (limit : Option Nat) (name : String) (later : Log m) :
    Decidable (Holds limit name later) :=
  inferInstanceAs (Decidable (_ ∧ _))

/-- The runs of a log that are still held, the oldest first. -/
def retained (limit : Option Nat) : Log m → List Run
  | [] => []
  | .ran name run :: later =>
    if Holds limit name later then run :: retained limit later else retained limit later
  | .registered _ :: later | .cleared _ :: later => retained limit later

/-- The registry that a log stands for. -/
def registry (limit : Option Nat) (log : Log m) : Registry m where
  pipelines := .ofList ((log.filterMap Event.pipeline?).map fun p => (p.name, p))
  history := log.retained limit
  retention := limit

/-- Serves a request by adding to a log. -/
def serve [Monad m] (limit : Option Nat) (now : m Instant) (log : Log m) :
    Request m → m (Reply × Log m)
  | .register p => return (.registered, log ++ [.registered p])
  | .run name id =>
    match log.pipeline? name with
    | none => return (.ran (.error (.pipelineNotFound name)), log)
    | some p => do
      let outcome ← p.execute id now
      return (.ran outcome.toExcept, log ++ [.ran name outcome.run])
  | .clear name =>
    return (.cleared (lastRuns limit (log.produced name)).length, log ++ [.cleared name])

/-! ## The produced runs -/

variable {limit : Option Nat} {name : String} {log : Log m}

theorem uncleared_concat {e : Event m} :
    Uncleared name (log ++ [e]) ↔ Uncleared name log ∧ e.clears name = false := by
  rw [Uncleared, List.forall_mem_append, List.forall_mem_singleton, Uncleared]

theorem produced_concat (name : String) (log : Log m) (e : Event m) :
    produced name (log ++ [e]) =
      if e.clears name then [] else produced name log ++ (e.run? name).toList := by
  rw [produced, List.rtakeWhile_concat]
  cases e.clears name with
  | true => rfl
  | false =>
    simp only [Bool.not_false, if_true, List.filterMap_append]
    cases hrun : e.run? name <;> simp [produced, hrun]

theorem produced_cons (name : String) (e : Event m) (later : Log m) :
    produced name (e :: later) =
      (if Uncleared name later then (e.run? name).toList else []) ++ produced name later := by
  induction later using List.reverseRecOn with
  | nil =>
    rw [← List.nil_append [e], produced_concat]
    cases hclears : e.clears name with
    | true => simp [produced, Event.run?_of_clears hclears]
    | false => simp [produced, Uncleared]
  | append_singleton later e' ih =>
    rw [← List.cons_append, produced_concat, produced_concat, ih]
    cases hclears : e'.clears name <;> simp [hclears, uncleared_concat]

/-! ## The last runs -/

@[simp] theorem lastRuns_nil (limit : Option Nat) : lastRuns limit [] = [] := by
  cases limit with
  | none => rfl
  | some n => exact List.rtake_nil n

theorem length_lastRuns (n : Nat) (runs : List Run) :
    (lastRuns (some n) runs).length = min n runs.length := by
  rw [lastRuns, Option.elim, List.rtake, List.length_drop]
  omega

theorem lastRuns_cons (limit : Option Nat) (run : Run) (runs : List Run) :
    lastRuns limit (run :: runs) =
      if ∀ n ∈ limit, runs.length < n then run :: lastRuns limit runs
      else lastRuns limit runs := by
  cases limit with
  | none => simp [lastRuns]
  | some n =>
    simp only [lastRuns, Option.elim, List.rtake, Option.mem_def, Option.some.injEq, forall_eq']
    split
    · next h => simp [show runs.length + 1 - n = 0 by omega, show runs.length - n = 0 by omega]
    · next h => simp [show runs.length + 1 - n = runs.length - n + 1 by omega]

/-! ## The retained runs -/

/-- The runs held under a name are the last ones that were produced under it. -/
theorem filter_retained (h : ∀ e ∈ log, e.Named) :
    (log.retained limit).filter (fun run => run.pipeline = name) =
      lastRuns limit (log.produced name) := by
  induction log with
  | nil => simp [retained, produced]
  | cons e later ih =>
    obtain ⟨hnamed, hlater⟩ := List.forall_mem_cons.1 h
    rw [produced_cons]
    cases e with
    | registered | cleared => simp [retained, ih hlater]
    | ran other run =>
      obtain rfl : run.pipeline = other := hnamed
      rw [retained, apply_ite (List.filter _)]
      by_cases hother : run.pipeline = name
      · subst hother
        rw [List.filter_cons_of_pos (by simp), ih hlater]
        by_cases hclears : Uncleared run.pipeline later
        · simp only [Holds, hclears, true_and, if_true, Event.run?_ran, Option.toList_some,
            List.singleton_append, lastRuns_cons]
        · simp [hclears, Holds]
      · rw [List.filter_cons_of_neg (by simp [hother]), ite_self, ih hlater]
        simp [hother]

theorem holds_concat_ran {other : String} (run : Run) :
    Holds limit name (log ++ [.ran other run]) ↔
      Holds limit name log ∧
        (other = name → ∀ n ∈ limit, (produced name log).length + 1 < n) := by
  simp only [Holds, produced_concat, uncleared_concat, Event.clears_ran, Event.run?_ran]
  by_cases h : other = name
  · have hearlier : (∀ n ∈ limit, (produced name log).length + 1 < n) →
        ∀ n ∈ limit, (produced name log).length < n :=
      fun hlater n hn => Nat.lt_of_succ_lt (hlater n hn)
    simp only [h, if_true, Option.toList_some, Bool.false_eq_true, if_false, List.length_append,
      List.length_singleton, and_true, true_imp_iff, and_assoc, and_iff_right_of_imp hearlier]
  · simp [h]

theorem holds_concat_cleared {other : String} :
    Holds limit name (log ++ [.cleared other]) ↔ Holds limit name log ∧ other ≠ name := by
  simp only [Holds, produced_concat, uncleared_concat, Event.clears_cleared, Event.run?_cleared]
  by_cases h : other = name <;> simp [h]

theorem holds_concat_registered (p : Pipeline m) :
    Holds limit name (log ++ [.registered p]) ↔ Holds limit name log := by
  simp [Holds, produced_concat, uncleared_concat]

theorem retained_registered (limit : Option Nat) (log : Log m) (p : Pipeline m) :
    retained limit (log ++ [.registered p]) = retained limit log := by
  induction log with
  | nil => rfl
  | cons e later ih =>
    cases e with
    | registered | cleared => exact ih
    | ran name run => simp only [List.cons_append, retained, holds_concat_registered, ih]

/-- Clearing a name leaves the runs of the others. -/
theorem retained_cleared (h : ∀ e ∈ log, e.Named) (limit : Option Nat) (name : String) :
    retained limit (log ++ [.cleared name]) =
      (retained limit log).filter fun run => run.pipeline ≠ name := by
  induction log with
  | nil => rfl
  | cons e later ih =>
    obtain ⟨hnamed, hlater⟩ := List.forall_mem_cons.1 h
    cases e with
    | registered | cleared => exact ih hlater
    | ran other run =>
      obtain rfl : run.pipeline = other := hnamed
      simp only [List.cons_append, retained, holds_concat_cleared, ih hlater]
      by_cases hother : run.pipeline = name
      · simp [hother, apply_ite (List.filter _)]
      · simp [hother, apply_ite (List.filter _), Ne.symm hother]

/-- How many runs are held under a name beside a new one. -/
theorem countP_retained_concat (h : ∀ e ∈ log, e.Named) {run : Run} (hrun : run.pipeline = name)
    (n : Nat) :
    (retained (some n) log ++ [run]).countP (fun run => run.pipeline = name) =
      min n (produced name log).length + 1 := by
  rw [List.countP_append, List.countP_eq_length_filter, filter_retained h, length_lastRuns,
    List.countP_singleton, if_pos (decide_eq_true hrun)]

/-- A further run joins the others and drives out the oldest ones of its name. -/
theorem retained_ran (h : ∀ e ∈ log, e.Named) {run : Run} (hrun : run.pipeline = name) (n : Nat) :
    retained (some n) (log ++ [.ran name run]) =
      (evictOldest name n (retained (some n) log ++ [run])).1 := by
  induction log with
  | nil =>
    rw [retained, List.nil_append, List.nil_append, evictOldest_cons, retained, retained]
    by_cases hn : n = 0
    · simp [hn, hrun, Holds]
    · simp [hn, Holds, Uncleared, produced, Nat.pos_of_ne_zero hn]
  | cons e later ih =>
    obtain ⟨hnamed, hlater⟩ := List.forall_mem_cons.1 h
    cases e with
    | registered | cleared => exact ih hlater
    | ran other run' =>
      obtain rfl : run'.pipeline = other := hnamed
      simp only [List.cons_append, retained, holds_concat_ran, ih hlater]
      by_cases hholds : Holds (some n) run'.pipeline later
      · rw [if_pos hholds, List.cons_append, evictOldest_cons, countP_retained_concat hlater hrun]
        by_cases hname : run'.pipeline = name
        · -- the earlier run was held, so fewer than `n` runs of its name came after it
          have hheld : (produced run'.pipeline later).length < n := hholds.2 n rfl
          subst hname
          simp only [hholds, true_and, true_imp_iff, Option.mem_def, Option.some.injEq, forall_eq',
            Nat.min_eq_right hheld.le, ← not_lt, ite_not]
        · simp [hholds, hname, Ne.symm hname]
      · simp [hholds]

theorem retained_ran_none (log : Log m) (name : String) (run : Run) :
    retained none (log ++ [.ran name run]) = retained none log ++ [run] := by
  induction log with
  | nil => simp [retained, Holds, Uncleared]
  | cons e later ih =>
    cases e with
    | registered | cleared => exact ih
    | ran other run' =>
      simp only [List.cons_append, retained, holds_concat_ran, ih]
      simp [apply_ite (· ++ [run])]

/-! ## The registry of a log -/

/-- A registry as it is opened stands for an empty log. -/
theorem registry_nil (retention : Option Nat) :
    registry (retention.map fun n => max n 1) ([] : Log m) = .opened retention := by
  cases retention <;> rfl

@[simp] theorem find?_pipelines (limit : Option Nat) (log : Log m) (name : String) :
    (log.registry limit).pipelines.find? name = log.pipeline? name :=
  Dictionary.find?_ofList_map ..

theorem name_of_pipeline? {p : Pipeline m} (h : log.pipeline? name = some p) : p.name = name := by
  simpa using List.find?_some h

theorem registry_registered (limit : Option Nat) (log : Log m) (p : Pipeline m) :
    registry limit (log ++ [.registered p]) = (log.registry limit).register p := by
  simp [registry, Registry.register, retained_registered, Event.pipeline?,
    Dictionary.ofList_concat]

theorem registry_ran (h : ∀ e ∈ log, e.Named) {run : Run} (hrun : run.pipeline = name)
    (limit : Option Nat) :
    registry limit (log ++ [.ran name run]) = (log.registry limit).record name run := by
  cases limit with
  | none =>
    simp [registry, Registry.record, retained_ran_none, List.filterMap_cons, Event.pipeline?]
  | some n =>
    simp [registry, Registry.record, retained_ran h hrun, List.filterMap_cons, Event.pipeline?]

theorem registry_cleared (h : ∀ e ∈ log, e.Named) (limit : Option Nat) (name : String) :
    registry limit (log ++ [.cleared name]) = ((log.registry limit).clearRuns name).1 := by
  simp [registry, Registry.clearRuns, retained_cleared h, List.filterMap_cons, Event.pipeline?]

/-- The runs under a name are the last ones that were produced under it. -/
theorem runs_registry (h : ∀ e ∈ log, e.Named) (limit : Option Nat) (name : String) :
    (log.registry limit).runs name = (lastRuns limit (log.produced name)).reverse := by
  rw [Registry.runs, Registry.allRuns, List.filter_reverse, registry, filter_retained h]

theorem run_of_unregistered [Monad m] (now : m Instant) (h : log.pipeline? name = none)
    (id : RunId) :
    (log.registry limit).run name id now =
      pure (.error (.pipelineNotFound name), log.registry limit) :=
  Registry.run_of_missing (by rw [Registry.pipeline, find?_pipelines, h]) id now

theorem run_of_registered [Monad m] [LawfulMonad m] (now : m Instant) {p : Pipeline m}
    (h : log.pipeline? name = some p) (id : RunId) :
    (log.registry limit).run name id now =
      (fun o => (o.toExcept, (log.registry limit).record name o.run)) <$> p.execute id now :=
  Registry.run_of_pipeline (by rw [Registry.pipeline, find?_pipelines, h]) id now

end Log

end Tableflow
