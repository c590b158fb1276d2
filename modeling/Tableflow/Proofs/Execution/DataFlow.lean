import Tableflow.Proofs.Blueprint.Order
import Tableflow.Proofs.Execution.Course

/-!
# The flow of data

In an execution of a built pipeline, every step whose turn comes before a failure is called once,
with exactly its declared inputs: its constants, and for its edges the artifacts that are recorded
for the steps they come from, which have completed by then (`Blueprint.Supplied`). So the inputs of
a step can always be gathered, and only a body or its outputs make a run fail
(`Blueprint.DataFlow`).
-/

namespace Tableflow

variable {m : Type → Type}

namespace Blueprint

section Definitions

variable (b : Blueprint m)

/-- A step is given its declared inputs, after the steps that feed it have completed: its constants,
and for each edge the artifact recorded for the output that the edge comes from. -/
structure Supplied (before : List StepRun) (step : String) (inputs : Inputs) : Prop where
  addressed : inputs.step = step
  fed : ∀ source, b.Feeds source step → ∃ r ∈ before, r.name = source ∧ r.Completed
  declared : ∀ input, input ∈ inputs.values.keys ↔ b.DeclaresInput step input
  constant : ∀ c ∈ b.constants, c.step = step → inputs.values.find? c.input = some c.value
  edge : ∀ e ∈ b.edges, e.target = step → ∃ r ∈ before, r.name = e.source ∧
    ∃ a, r.outputs.find? e.output = some a ∧ inputs.values.find? e.input = some a

/-- A step has completed with all its declared outputs and is found under its name. -/
def Holds (t : Transcript) (name : String) : Prop :=
  ∃ r, t.completed? name = some r ∧ r.name = name ∧ r.Completed ∧
    ∀ output, b.DeclaresOutput name output → ∃ a, r.outputs.find? output = some a

end Definitions

variable {b : Blueprint m} {t : Transcript}

/-! ## Gathering inputs -/

/-- What a step is bound to can be had if the steps that feed it have completed. -/
theorem resolve_of_holds (h : b.Wired) {s : NamedStep m}
    (hfed : ∀ source, b.Feeds source s.name → b.Holds t source) {input : String}
    {source : Source} (hbound : (place b.allBindings s).bindings.find? input = some source) :
    ∃ a, (place b.allBindings s).resolve t source = .ok a := by
  rw [find?_bindings_iff h.ports_nodup, mem_allBindings] at hbound
  rcases hbound with ⟨e, he, hport, rfl⟩ | ⟨c, -, -, rfl⟩
  · obtain ⟨htarget, -⟩ := Prod.mk.inj hport
    obtain ⟨r, hr, -, -, houtputs⟩ := hfed e.source ⟨e, he, rfl, htarget⟩
    obtain ⟨a, ha⟩ := houtputs e.output (h.output_declared e he)
    exact ⟨a, (Transcript.resolve_output hr _ _).trans (StepRun.output_eq_ok_iff.2 ha)⟩
  · exact ⟨c.value, rfl⟩

/-- The inputs of a step can be gathered if the steps that feed it have completed. -/
theorem gatherInputs_of_holds (h : b.Wired) {s : NamedStep m}
    (hfed : ∀ source, b.Feeds source s.name → b.Holds t source) :
    ∃ inputs, (place b.allBindings s).gatherInputs t = .ok inputs ∧
      b.Supplied t.steps s.name inputs := by
  obtain ⟨values, hvalues, hkeys, hfind⟩ :=
    Dictionary.exists_mapM_eq_ok fun input source hbound => resolve_of_holds h hfed hbound
  refine ⟨⟨s.name, values⟩, by rw [BoundStep.gatherInputs, hvalues]; rfl, ?_⟩
  have hbound : ∀ input source, ⟨s.name, input, source⟩ ∈ b.allBindings →
      ∃ a, (place b.allBindings s).resolve t source = .ok a ∧ values.find? input = some a :=
    fun input source hmem => hfind input source ((find?_bindings_iff h.ports_nodup).2 hmem)
  refine ⟨rfl, fun source hsource => ?_, fun input => ?_, fun c hc hstep => ?_,
    fun e he htarget => ?_⟩
  · obtain ⟨r, hr, hname, hcompleted, -⟩ := hfed source hsource
    exact ⟨r, Transcript.mem_of_completed? hr, hname, hcompleted⟩
  · rw [hkeys, Dictionary.mem_keys_iff, ← Dictionary.contains_iff,
      contains_bindings_iff h.ports_nodup, mem_ports_iff h]
  · obtain ⟨a, ha, hvalue⟩ := hbound c.input (.constant c.value)
      (mem_allBindings.2 (.inr ⟨c, hc, by rw [Constant.port, hstep], rfl⟩))
    rw [hvalue, ← Except.ok.inj ha]
  · obtain ⟨a, ha, hvalue⟩ := hbound e.input (.output e.source e.output)
      (mem_allBindings.2 (.inl ⟨e, he, by rw [Edge.port, htarget], rfl⟩))
    obtain ⟨r, hr, hname, -, -⟩ := hfed e.source ⟨e, he, rfl, htarget⟩
    rw [Transcript.resolve_output hr, StepRun.output_eq_ok_iff] at ha
    exact ⟨r, Transcript.mem_of_completed? hr, hname, a, ha, hvalue⟩

/-! ## Courses of built pipelines -/

section Built

variable {p : Pipeline m} {done rest : List (BoundStep m)} {calls : List Call}

theorem nodup_names_of_append (h : b.Arranged p) (hwired : b.Wired) (hp : p.steps = done ++ rest) :
    (done.map BoundStep.name).Nodup := by
  have hnames := h.nodup_stepNames hwired
  rw [Pipeline.stepNames, hp, List.map_append] at hnames
  exact (List.nodup_append.1 hnames).1

/-- Before a failure, the steps so far have completed with all their declared outputs. -/
theorem holds_of_course (h : b.Arranged p) (hwired : b.Wired) (hp : p.steps = done ++ rest)
    (hcourse : Course done t calls) (hintact : t.breakdown = none) {name : String}
    (hname : name ∈ done.map BoundStep.name) : b.Holds t name := by
  obtain ⟨s, hs, rfl⟩ := List.mem_map.1 hname
  obtain ⟨started, finished, outputs, hdeclares, hfound⟩ :=
    hcourse.found (nodup_names_of_append h hwired hp) hintact s hs
  refine ⟨_, hfound, rfl, ⟨_, _, _, rfl⟩, fun output houtput => ?_⟩
  have hmem : s ∈ p.steps := hp ▸ List.mem_append_left _ hs
  obtain ⟨s', hs', rfl⟩ := h.exists_place_of_mem hmem
  exact Dictionary.mem_keys_iff.1
    ((hdeclares output).2 ((declaresOutput_iff hwired.names_nodup hs').1 houtput))

/-- The inputs of the next step can be gathered. -/
theorem supplied_of_course {s : BoundStep m} (h : b.Arranged p) (hwired : b.Wired)
    (hp : p.steps = done ++ s :: rest) (hcourse : Course done t calls)
    (hintact : t.breakdown = none) :
    ∃ inputs, s.gatherInputs t = .ok inputs ∧ b.Supplied t.steps s.name inputs := by
  have hmem : s ∈ p.steps := hp ▸ List.mem_append_right _ List.mem_cons_self
  obtain ⟨s', hs', rfl⟩ := h.exists_place_of_mem hmem
  have hnames : p.stepNames =
      done.map BoundStep.name ++ s'.name :: rest.map BoundStep.name := by
    rw [Pipeline.stepNames, hp, List.map_append, List.map_cons]
    rfl
  have hready := (h.stepNames_at_split hwired hnames).1
  exact gatherInputs_of_holds hwired fun source hsource =>
    holds_of_course h hwired hp hcourse hintact (hready.fed source hsource)

/-- Each call was supplied from what had been recorded by then. -/
def SuppliedInTurn (b : Blueprint m) (steps : List StepRun) (calls : List Call) : Prop :=
  ∀ i call, calls[i]? = some call → b.Supplied (steps.take i) call.step call.inputs

/-- What is recorded later does not change what a call was supplied from. -/
theorem SuppliedInTurn.append {steps : List StepRun} (h : b.SuppliedInTurn steps calls)
    (hlength : calls.length ≤ steps.length) (r : StepRun) :
    b.SuppliedInTurn (steps ++ [r]) calls := by
  intro i call hcall
  have hi : i < calls.length := (List.getElem?_eq_some_iff.1 hcall).1
  rw [List.take_append_of_le_length (hi.le.trans hlength)]
  exact h i call hcall

/-- One more call is supplied from all that has been recorded. -/
theorem SuppliedInTurn.snoc {steps : List StepRun} {call : Call}
    (h : b.SuppliedInTurn steps calls) (hlength : calls.length = steps.length)
    (hcall : b.Supplied steps call.step call.inputs) (r : StepRun) :
    b.SuppliedInTurn (steps ++ [r]) (calls ++ [call]) := by
  intro i call' hcall'
  rcases getElem?_concat_cases hcall' with hcall' | ⟨rfl, rfl⟩
  · exact h.append hlength.le r i call' hcall'
  · rw [hlength, List.take_left]
    exact hcall

/-- What the calls and the transcript of a course have to do with each other: the steps so far are
called in their order up to the first failure, which its own call has caused, and each call was
supplied from what had been recorded by then. -/
structure Flow (b : Blueprint m) (done : List (BoundStep m)) (t : Transcript)
    (calls : List Call) : Prop where
  order : calls.map Call.step <+: done.map BoundStep.name
  supplied : b.SuppliedInTurn t.steps calls
  intact : t.breakdown = none → calls.length = done.length
  broken : ∀ breakdown, t.breakdown = some breakdown → ∃ s ∈ done, ∃ front call,
    calls = front ++ [call] ∧ call.step = s.name ∧ breakdown.step = s.name ∧
      s.Blames call.result breakdown.trace ∧
      ∃ r, t.steps[front.length]? = some r ∧ ¬ r.Completed

theorem Flow.called {s : BoundStep m} (h : b.Flow done t calls)
    (hlength : t.steps.length = done.length) (hintact : t.breakdown = none) (call : Call)
    (hstep : call.step = s.name) (hsupplied : b.Supplied t.steps call.step call.inputs)
    (started finished : Instant) :
    b.Flow (done ++ [s]) (t.record s.name started finished (s.conclude call.result))
      (calls ++ [call]) := by
  have hcalls : calls.length = t.steps.length := (h.intact hintact).trans hlength.symm
  have hmap : calls.map Call.step = done.map BoundStep.name :=
    h.order.eq_of_length (by rw [List.length_map, List.length_map, h.intact hintact])
  have horder : (calls ++ [call]).map Call.step <+: (done ++ [s]).map BoundStep.name := by
    rw [List.map_append, List.map_append, hmap, List.map_singleton, hstep]
    exact List.prefix_refl _
  have hnew : ∀ r, b.SuppliedInTurn (t.steps ++ [r]) (calls ++ [call]) :=
    h.supplied.snoc hcalls hsupplied
  rcases s.conclude_cases call.result with ⟨outputs, -, hconclude, -⟩ | ⟨trace, hconclude, hblames⟩
  · rw [hconclude]
    refine ⟨horder, hnew _, fun _ => ?_, fun breakdown hbreakdown => ?_⟩
    · rw [List.length_append, List.length_append, h.intact hintact]
      rfl
    · rw [Transcript.record, hintact] at hbreakdown
      cases hbreakdown
  · rw [hconclude]
    refine ⟨horder, hnew _, fun hnone => absurd hnone (Option.some_ne_none _),
      fun breakdown hbreakdown => ?_⟩
    obtain rfl := Option.some.inj hbreakdown
    -- so far every step has been called, so the failed record stands at the place of its call
    refine ⟨s, by simp, calls, call, rfl, hstep, rfl, hblames,
      ⟨s.name, .failed started finished⟩, ?_, ?_⟩
    · rw [hcalls]
      exact List.getElem?_concat_length
    · rintro ⟨_, _, _, hcompleted⟩
      cases hcompleted

theorem Flow.skipped (h : b.Flow done t calls) (hlength : t.steps.length = done.length)
    (s : BoundStep m) {breakdown : Breakdown} (hbroken : t.breakdown = some breakdown) :
    b.Flow (done ++ [s]) (t.skip s.name) calls := by
  have hcalls : calls.length ≤ t.steps.length := by
    simpa [hlength] using h.order.length_le
  refine ⟨?_, h.supplied.append hcalls _, fun hnone => ?_,
    fun breakdown' hbreakdown' => ?_⟩
  · rw [List.map_append]
    exact h.order.trans (List.prefix_append _ _)
  · rw [Transcript.skip, hbroken] at hnone
    cases hnone
  · obtain ⟨s', hs', front, call, hcall, hstep, hname, hblames, r, hr, hfailed⟩ :=
      h.broken breakdown' hbreakdown'
    exact ⟨s', List.mem_append_left _ hs', front, call, hcall, hstep, hname, hblames, r,
      getElem?_append_of_eq_some hr _, hfailed⟩

theorem flow_of_course (h : b.Arranged p) (hwired : b.Wired) (hcourse : Course done t calls)
    (hp : p.steps = done ++ rest) : b.Flow done t calls := by
  induction hcourse generalizing rest with
  | start =>
    refine ⟨List.prefix_refl _, fun i call hcall => ?_, fun _ => rfl, fun breakdown h => ?_⟩
    · cases hcall
    · cases h
  | called result started finished before intact gathered ih =>
    rw [List.append_assoc, List.singleton_append] at hp
    obtain ⟨inputs, hinputs, hsupplied⟩ := supplied_of_course h hwired hp before intact
    obtain rfl := Except.ok.inj (hinputs.symm.trans gathered)
    exact (ih hp).called before.length_steps intact ⟨_, _, result⟩ rfl hsupplied started finished
  | refused started finished before intact gathered ih =>
    rw [List.append_assoc, List.singleton_append] at hp
    -- the inputs can be gathered, so no step is refused
    obtain ⟨inputs, hinputs, -⟩ := supplied_of_course h hwired hp before intact
    rw [gathered] at hinputs
    cases hinputs
  | skipped before broken ih =>
    rw [List.append_assoc, List.singleton_append] at hp
    exact (ih hp).skipped before.length_steps _ broken

end Built

/-! ## Executions of built pipelines -/

/-- What the record and the calls of an execution show: the steps in their order, called in that
order; each one whose turn comes before a failure is called once and supplied from what was recorded
by then; and a failure is that of a call. -/
structure DataFlow (b : Blueprint m) (p : Pipeline m) (o : Outcome) (calls : List Call) : Prop where
  recorded : o.run.steps.map StepRun.name = p.stepNames
  order : calls.map Call.step <+: p.stepNames
  turn : ∀ front s back, p.steps = front ++ s :: back →
    (∀ r ∈ o.run.steps.take front.length, r.Completed) →
    (calls.map Call.step).count s.name = 1 ∧ ∃ call ∈ calls, call.step = s.name ∧
      b.Supplied (o.run.steps.take front.length) s.name call.inputs
  blamed : ∀ fault, o.error = some fault → ∃ s ∈ p.steps, ∃ call ∈ calls, call.step = s.name ∧
    ∃ trace, fault = .stepFailed o.run.id s.name trace ∧ s.Blames call.result trace

theorem Flow.dataFlow {p : Pipeline m} {calls : List Call} (h : b.Flow p.steps t calls)
    (hnames : p.stepNames.Nodup) (hrecorded : t.steps.map StepRun.name = p.stepNames) (id : RunId)
    (started finished : Instant) :
    b.DataFlow p (t.outcome id p.name started finished) calls := by
  refine ⟨hrecorded, h.order, fun front s back hp hcompleted => ?_, fun fault hfault => ?_⟩
  · -- the turn of the step has come, so the calls reach to its place
    have hreached : front.length < calls.length := by
      cases hbreakdown : t.breakdown with
      | none =>
        rw [h.intact hbreakdown, hp, List.length_append, List.length_cons]
        omega
      | some breakdown =>
        obtain ⟨_, -, before, call, rfl, -, -, -, r, hr, hfailed⟩ := h.broken breakdown hbreakdown
        by_contra hshort
        rw [List.length_append, List.length_singleton] at hshort
        have hr' : (t.steps.take front.length)[before.length]? = some r := by
          rw [List.getElem?_take_of_lt (by omega), hr]
        exact hfailed (hcompleted r (List.mem_of_getElem? hr'))
    have hcall : calls[front.length]? = some calls[front.length] :=
      List.getElem?_eq_getElem hreached
    have hstep : calls[front.length].step = s.name := by
      have hget := h.order.getElem (i := front.length) (by rwa [List.length_map])
      simpa [hp] using hget
    have hmem : s.name ∈ calls.map Call.step :=
      List.mem_map.2 ⟨_, List.getElem_mem hreached, hstep⟩
    refine ⟨List.count_eq_one_of_mem (h.order.sublist.nodup hnames) hmem, _,
      List.getElem_mem hreached, hstep, ?_⟩
    exact hstep ▸ h.supplied front.length _ hcall
  · obtain ⟨breakdown, hbreakdown, rfl⟩ := Option.map_eq_some_iff.1 hfault
    obtain ⟨s, hs, front, call, rfl, hstep, hname, hblames, -⟩ := h.broken breakdown hbreakdown
    exact ⟨s, hs, call, by simp, hstep, breakdown.trace, by rw [hname]; rfl, hblames⟩

/-- In an execution of a built pipeline the data flow along the edges, and no failure is made on the
way: when the turn of a step comes, its inputs can be gathered. -/
theorem execute_data_flow [Monad m] [LawfulMonad m] {b : Blueprint m} {p : Pipeline m}
    (h : b.build = .ok p) (id : RunId) (now : m Instant) :
    Prod.fst <$> p.executeLogged id now = p.execute id now ∧
      SatisfiesM (fun r => b.DataFlow p r.1 r.2) (p.executeLogged id now) ∧
      ∀ done s rest, p.steps = done ++ s :: rest →
        SatisfiesM (fun t => t.breakdown = none →
            ∃ inputs, s.gatherInputs t = .ok inputs ∧ b.Supplied t.steps s.name inputs)
          (done.foldlM (Transcript.advance now) .empty) := by
  obtain ⟨⟨hwired, -⟩, harranged⟩ := of_build_eq_ok h
  refine ⟨p.erases_execute id now [], ?_, fun done s rest hp => ?_⟩
  · refine (p.satisfiesM_executeLogged id now).imp ?_
    rintro ⟨o, calls⟩ ⟨t, started, finished, hcourse, rfl⟩
    have hflow := flow_of_course harranged hwired hcourse (List.append_nil _).symm
    exact hflow.dataFlow (harranged.nodup_stepNames hwired) hcourse.names id started finished
  · refine (Transcript.satisfiesM_foldlM now done).imp ?_
    rintro t ⟨calls, hcourse⟩ hintact
    exact supplied_of_course harranged hwired hp hcourse hintact

/-- A source, a step that takes its output beside a constant and fails, and a step behind it. -/
def halted : Blueprint Id where
  name := "halted"
  steps := [⟨"sink", ⟨["x"], []⟩, fun _ => .ok .empty⟩,
    ⟨"scale", ⟨["by", "x"], ["out"]⟩, fun _ => .error (.text "overflow")⟩,
    ⟨"source", ⟨[], ["out"]⟩, fun _ => .ok (.ofList [("out", .of .int64 7)])⟩]
  edges := [⟨"source", "out", "scale", "x"⟩, ⟨"scale", "out", "sink", "x"⟩]
  constants := [⟨"scale", "by", .of .int64 3⟩]

/-- The step that fails has been called, and the one behind it has not. -/
theorem halted_data_flow :
    ∃ p o calls, halted.build = .ok p ∧ p.executeLogged ⟨1⟩ (pure ⟨0⟩) = (o, calls) ∧
      halted.DataFlow p o calls ∧ calls.map Call.step = ["source", "scale"] := by
  have hsteps : (halted.build.toOption.map fun p =>
      (p.executeLogged ⟨1⟩ (pure ⟨0⟩)).2.map Call.step) = some ["source", "scale"] := by
    cbv
  obtain ⟨p, hbuild, hcalls⟩ := exists_build_eq_ok hsteps
  obtain ⟨-, hflow, -⟩ := execute_data_flow hbuild ⟨1⟩ (pure ⟨0⟩)
  rw [SatisfiesM_Id_eq] at hflow
  exact ⟨p, _, _, hbuild, rfl, hflow, hcalls⟩

end Blueprint

end Tableflow
