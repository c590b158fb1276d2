import Mathlib
import Tableflow.Proofs.Execution.Calls
import Tableflow.Proofs.Execution.Transcript

/-!
# The course of an execution

`Course` says which transcripts and calls the first steps of a pipeline can lead to, whatever the
bodies return and the clock shows: a step is called, refused because its inputs cannot be gathered,
or skipped behind a failure. The loop of an execution stays on such a course
(`satisfiesM_foldlM`), so what holds of every course holds of every execution
(`Pipeline.satisfiesM_executeLogged`).
-/

namespace Tableflow

variable {m : Type → Type}

/-! ## Courses -/

/-- What the first steps of a pipeline lead to, with the calls that are made on the way. -/
inductive Course : List (BoundStep m) → Transcript → List Call → Prop
  | start : Course [] .empty []
  | called {done t calls s inputs} (result : Except Trace Outputs) (started finished : Instant)
      (before : Course done t calls) (intact : t.breakdown = none)
      (gathered : s.gatherInputs t = .ok inputs) :
      Course (done ++ [s]) (t.record s.name started finished (s.conclude result))
        (calls ++ [⟨s.name, inputs, result⟩])
  | refused {done t calls s fault} (started finished : Instant)
      (before : Course done t calls) (intact : t.breakdown = none)
      (gathered : s.gatherInputs t = .error fault) :
      Course (done ++ [s]) (t.record s.name started finished (.error (.fault fault))) calls
  | skipped {done t calls s b} (before : Course done t calls) (broken : t.breakdown = some b) :
      Course (done ++ [s]) (t.skip s.name) calls

variable {done : List (BoundStep m)} {t : Transcript} {calls : List Call}

/-! ## What a course keeps -/

namespace Course

theorem names (h : Course done t calls) :
    t.steps.map StepRun.name = done.map BoundStep.name := by
  induction h with
  | start => rfl
  | called _ _ _ _ _ _ ih | refused _ _ _ _ _ ih =>
    rw [Transcript.names_record, ih, List.map_append, List.map_singleton]
  | skipped _ _ ih => rw [Transcript.names_skip, ih, List.map_append, List.map_singleton]

theorem length_steps (h : Course done t calls) : t.steps.length = done.length := by
  rw [← List.length_map (f := StepRun.name), h.names, List.length_map]

/-- Before a failure, every step so far has completed with its declared outputs and is found under
its name. -/
theorem found (h : Course done t calls) (hnames : (done.map BoundStep.name).Nodup)
    (hintact : t.breakdown = none) :
    ∀ s ∈ done, ∃ started finished outputs, s.Declares outputs ∧
      t.completed? s.name = some ⟨s.name, .completed started finished outputs⟩ := by
  induction h with
  | start => simp
  | @called done t calls s inputs result started finished _ intact _ ih =>
    rw [List.map_append, List.nodup_append] at hnames
    obtain ⟨hfront, -, hnew⟩ := hnames
    rcases s.conclude_cases result with ⟨outputs, -, hconclude, hdeclares⟩ | ⟨trace, hconclude, -⟩
    · rw [hconclude]
      intro s' hs'
      rcases List.mem_append.1 hs' with hs' | hs'
      · obtain ⟨started', finished', outputs', hdeclares', hfound⟩ := ih hfront intact s' hs'
        have hne : s'.name ≠ s.name := hnew _ (List.mem_map_of_mem hs') _ (by simp)
        exact ⟨_, _, _, hdeclares', Transcript.completed?_record_of_ne hfound hne⟩
      · rw [List.mem_singleton.1 hs']
        exact ⟨_, _, _, hdeclares, Transcript.completed?_record_self ..⟩
    · rw [hconclude] at hintact
      cases hintact
  | refused => cases hintact
  | skipped _ broken =>
    rw [Transcript.skip, broken] at hintact
    cases hintact

end Course

/-! ## Executions stay on a course -/

/-- The answers in a list of calls are ones that `returns` allows for the step and its inputs. -/
def Answered (returns : String → Inputs → Except Trace Outputs → Prop) (calls : List Call) : Prop :=
  ∀ call ∈ calls, returns call.step call.inputs call.result

variable {returns : String → Inputs → Except Trace Outputs → Prop}

theorem Answered.snoc (h : Answered returns calls) {call : Call}
    (hcall : returns call.step call.inputs call.result) : Answered returns (calls ++ [call]) := by
  intro call' hcall'
  rcases List.mem_append.1 hcall' with hcall' | hcall'
  · exact h call' hcall'
  · rwa [List.mem_singleton.1 hcall']

variable [Monad m] [LawfulMonad m]

/-- The bodies of some steps answer as `returns` allows. -/
def Answers (returns : String → Inputs → Except Trace Outputs → Prop)
    (steps : List (BoundStep m)) : Prop :=
  ∀ s ∈ steps, ∀ inputs, SatisfiesM (returns s.name inputs) (s.step.body inputs)

theorem answers_true (steps : List (BoundStep m)) : Answers (fun _ _ _ => True) steps :=
  fun _ _ _ => .trivial

/-- Taking one more step leads along a course. -/
theorem Course.satisfiesM_advance (now : m Instant) {s : BoundStep m} (hs : Answers returns [s])
    (h : Course done t calls) (hanswered : Answered returns calls) :
    SatisfiesM (fun r => Course (done ++ [s]) r.1 r.2 ∧ Answered returns r.2)
      ((Transcript.advance (liftM now) t s.logged).run calls) := by
  rw [Transcript.advance]
  cases hbreakdown : t.breakdown with
  | some b => exact .pure ⟨.skipped h hbreakdown, hanswered⟩
  | none =>
    have hgather : s.logged.gatherInputs t = s.gatherInputs t := rfl
    simp only [StateT.run_bind, run_liftM, bind_assoc, pure_bind]
    refine .bind (.trivial (x := now)) fun started _ => ?_
    rw [BoundStep.perform, hgather]
    cases hinputs : s.gatherInputs t with
    | error fault =>
      simp only [StateT.run_pure, pure_bind]
      exact .bind .trivial fun finished _ =>
        .pure ⟨.refused started finished h hbreakdown hinputs, hanswered⟩
    | ok inputs =>
      -- between the two readings of the clock the body is called and its call written down
      simp only [BoundStep.logged, StateT.run_bind, run_liftM, bind_assoc, pure_bind,
        StateT.run_pure, StateT.run_modify]
      refine .bind (hs s List.mem_cons_self inputs) fun result hresult => ?_
      refine .bind .trivial fun finished _ => .pure ⟨?_, hanswered.snoc hresult⟩
      exact .called result started finished h hbreakdown hinputs

/-- Taking some more steps leads along a course. -/
theorem Course.satisfiesM_foldlM (now : m Instant) {rest : List (BoundStep m)}
    (hrest : Answers returns rest) (h : Course done t calls) (hanswered : Answered returns calls) :
    SatisfiesM (fun r => Course (done ++ rest) r.1 r.2 ∧ Answered returns r.2)
      (((rest.map BoundStep.logged).foldlM (Transcript.advance (liftM now)) t).run calls) := by
  induction rest generalizing done t calls with
  | nil =>
    rw [List.append_nil]
    exact .pure ⟨h, hanswered⟩
  | cons s rest ih =>
    rw [List.map_cons, List.foldlM_cons, StateT.run_bind, List.append_cons]
    obtain ⟨hs, hrest⟩ := List.forall_mem_cons.1 hrest
    refine (h.satisfiesM_advance now (List.forall_mem_singleton.2 hs) hanswered).bind ?_
    exact fun r hr => ih hrest hr.1 hr.2

theorem Transcript.satisfiesM_foldlM (now : m Instant) (steps : List (BoundStep m)) :
    SatisfiesM (fun t => ∃ calls, Course steps t calls)
      (steps.foldlM (Transcript.advance now) .empty) := by
  rw [← erases_foldlM now steps .empty []]
  refine (Course.start.satisfiesM_foldlM now (answers_true steps) ?_).map fun {r} hr => ⟨r.2, hr.1⟩
  exact fun call hcall => nomatch hcall

/-- An execution is a course of all steps, in which the bodies have answered as they may. -/
theorem Pipeline.satisfiesM_executeLogged_answered (p : Pipeline m) (id : RunId) (now : m Instant)
    (h : Answers returns p.steps) :
    SatisfiesM (fun r => ∃ t started finished, Course p.steps t r.2 ∧ Answered returns r.2 ∧
        r.1 = t.outcome id p.name started finished) (p.executeLogged id now) := by
  rw [executeLogged, execute]
  simp only [StateT.run_bind, run_liftM, bind_assoc, pure_bind, StateT.run_pure]
  refine .bind (.trivial (x := now)) fun started _ => ?_
  refine .bind (Course.start.satisfiesM_foldlM now h fun call hcall => nomatch hcall) fun r hr => ?_
  exact .bind .trivial fun finished _ => .pure ⟨r.1, started, finished, hr.1, hr.2, rfl⟩

theorem Pipeline.satisfiesM_executeLogged (p : Pipeline m) (id : RunId) (now : m Instant) :
    SatisfiesM (fun r => ∃ t started finished, Course p.steps t r.2 ∧
        r.1 = t.outcome id p.name started finished) (p.executeLogged id now) :=
  (p.satisfiesM_executeLogged_answered id now (answers_true p.steps)).imp
    fun ⟨t, started, finished, hcourse, _, houtcome⟩ => ⟨t, started, finished, hcourse, houtcome⟩

/-- The same without the list of calls. -/
theorem Pipeline.satisfiesM_execute (p : Pipeline m) (id : RunId) (now : m Instant)
    (h : Answers returns p.steps) :
    SatisfiesM (fun o => ∃ t calls started finished, Course p.steps t calls ∧
        Answered returns calls ∧ o = t.outcome id p.name started finished) (p.execute id now) := by
  rw [← p.erases_execute id now []]
  refine (p.satisfiesM_executeLogged_answered id now h).map ?_
  rintro ⟨o, calls⟩ ⟨t, started, finished, hcourse, hanswered, houtcome⟩
  exact ⟨t, calls, started, finished, hcourse, hanswered, houtcome⟩

end Tableflow
