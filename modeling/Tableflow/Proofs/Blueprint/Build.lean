import Mathlib
import Tableflow.Proofs.Blueprint.Arrangement

/-!
# Building pipelines

`Blueprint.build` decides `Blueprint.checks` (`decides_build`). So it returns a pipeline exactly for
the valid blueprints and reports the first check that fails otherwise (`build_exact`), and a cycle
is reported with exactly the steps that lie on one (`build_cycle_report`).
-/

namespace Tableflow.Blueprint

open Check Relation

variable {m : Type → Type}

theorem decides_arrange {b : Blueprint m} (h : b.Wired) :
    Decides [b.cycleCheck] b.Arranged (arrange b.name b.boundSteps) := by
  refine .cons (fun hcycle => ?_) fun hacyclic => ?_
  · obtain ⟨step, hstep⟩ := not_forall_not.1 hcycle
    exact arrange_of_cyclic h hstep
  · obtain ⟨p, hp, harranged⟩ := arrange_of_acyclic h hacyclic
    rw [hp]
    exact ⟨pass_nil, harranged⟩

theorem decides_build (b : Blueprint m) : Decides b.checks b.Arranged b.build := by
  rw [checks, wiringChecks, List.append_assoc, List.append_assoc, build]
  have hrepeated : Decides (scan b.nameChecks [] b.steps) (fun _ => True) _ :=
    decides_firstRepeated fun name => (Iff.rfl : name ∈ [] ↔ _)
  refine hrepeated.after_report (fun fault hfault => ?_) fun hnone hpassNames => ?_
  · obtain ⟨step, hstep, rfl⟩ := Option.map_eq_some_iff.1 hfault
    rw [hstep]
  rw [Option.map_eq_none_iff.1 hnone]
  have hnodup := pass_nameChecks_iff.1 hpassNames
  refine (decides_bindings hnodup).bind fun made hpassBindings hmade => ?_
  subst hmade
  obtain ⟨hpassEdges, hpassConstants⟩ := pass_append.1 hpassBindings
  have hports := (pass_constantChecks_iff (pass_edgeChecks_iff.1 hpassEdges).2).1 hpassConstants
  have hinputs := decides_findSome fun s (_ : s ∈ b.steps) => decides_unbound hports.2 s
  dsimp only
  rw [List.findSome?_map]
  refine hinputs.after_report (fun fault hfault => ?_) fun hnone hpassInputs => ?_
  · have hfault' : b.steps.findSome? (unbound? ∘ place b.allBindings) = some fault := hfault
    rw [hfault']
  have hnone' : b.steps.findSome? (unbound? ∘ place b.allBindings) = none := hnone
  rw [hnone']
  refine decides_arrange (pass_wiringChecks_iff.1 ?_)
  rw [wiringChecks, pass_append, pass_append]
  exact ⟨⟨hpassNames, hpassBindings⟩, hpassInputs⟩

/-- None of the checks is reported as an internal fault. -/
theorem fault_ne_internal {b : Blueprint m} {c : Check} (h : c ∈ b.checks) (reason : String) :
    c.fault ≠ .internal reason := by
  simp only [checks, wiringChecks, List.mem_append, List.mem_flatMap, List.mem_map,
    List.mem_singleton] at h
  rcases h with ((h | h | h) | ⟨s, -, input, -, rfl⟩) | rfl
  · obtain ⟨before, s, h⟩ := mem_scan h
    rw [List.mem_singleton.1 h]
    exact Fault.noConfusion
  · obtain ⟨before, e, h⟩ := mem_scan h
    simp only [edgeChecks, List.mem_cons, List.not_mem_nil, or_false] at h
    rcases h with rfl | rfl | rfl | rfl | rfl <;> exact Fault.noConfusion
  · obtain ⟨before, c', h⟩ := mem_scan h
    simp only [constantChecks, List.mem_cons, List.not_mem_nil, or_false] at h
    rcases h with rfl | rfl | rfl <;> exact Fault.noConfusion
  · exact Fault.noConfusion
  · exact Fault.noConfusion

/-- A blueprint is built exactly if it is valid. Otherwise the fault is that of the first check that
fails, which is never an internal one. -/
theorem build_exact (b : Blueprint m) :
    ((∃ p, b.build = .ok p) ↔ b.Valid) ∧
      (∀ fault, b.build = .error fault ↔ FirstFailure b.checks fault) ∧
      ∀ reason, b.build ≠ .error (.internal reason) := by
  have hbuild := b.decides_build
  refine ⟨?_, fun fault => hbuild.error_iff, fun reason hreason => ?_⟩
  · rw [hbuild.exists_ok_iff, pass_checks_iff]
  · obtain ⟨c, hc, -, hfault⟩ := (hbuild.error_iff.1 hreason).mem
    exact fault_ne_internal hc reason hfault

/-! ## Cycles -/

theorem build_of_cyclic {b : Blueprint m} (h : Pass b.wiringChecks) {step : String}
    (hstep : TransGen b.Feeds step step) :
    b.build = .error (.cyclicDependency b.name b.cyclicSteps) := by
  rw [b.decides_build.error_iff, checks]
  exact .append_right h (.here fun hacyclic => hacyclic step hstep)

theorem build_of_acyclic {b : Blueprint m} (h : Pass b.wiringChecks)
    (hacyclic : ∀ step, ¬ TransGen b.Feeds step step) : ∃ p, b.build = .ok p := by
  rw [b.decides_build.exists_ok_iff, checks, pass_append, pass_cons]
  exact ⟨h, hacyclic, pass_nil⟩

/-- If all other checks pass, then a cycle is reported exactly if there is one, with the steps that
lie on one: each once, in the order of their declaration, and no others. -/
theorem build_cycle_report {b : Blueprint m} (h : Pass b.wiringChecks) :
    ((∃ pipeline steps, b.build = .error (.cyclicDependency pipeline steps)) ↔
        ∃ step, TransGen b.Feeds step step) ∧
      ∀ pipeline steps, b.build = .error (.cyclicDependency pipeline steps) →
        pipeline = b.name ∧ steps ≠ [] ∧ steps.Nodup ∧ steps.Sublist b.stepNames ∧
          ∀ step, step ∈ steps ↔ TransGen b.Feeds step step := by
  have hwired := pass_wiringChecks_iff.1 h
  have hcycle : ∀ pipeline steps, b.build = .error (.cyclicDependency pipeline steps) →
      ∃ step, TransGen b.Feeds step step := by
    intro pipeline steps hbuild
    by_contra! hacyclic
    obtain ⟨p, hp⟩ := build_of_acyclic h hacyclic
    rw [hp] at hbuild
    cases hbuild
  refine ⟨⟨fun ⟨pipeline, steps, hbuild⟩ => hcycle pipeline steps hbuild, ?_⟩, ?_⟩
  · rintro ⟨step, hstep⟩
    exact ⟨_, _, build_of_cyclic h hstep⟩
  · intro pipeline steps hbuild
    obtain ⟨step, hstep⟩ := hcycle pipeline steps hbuild
    rw [build_of_cyclic h hstep] at hbuild
    obtain ⟨rfl, rfl⟩ := Fault.cyclicDependency.inj (Except.error.inj hbuild)
    have hmem : ∀ step, step ∈ b.cyclicSteps ↔ TransGen b.Feeds step step := fun step =>
      b.mem_cyclicSteps.trans (and_iff_right_of_imp (mem_stepNames_of_cycle hwired))
    exact ⟨rfl, List.ne_nil_of_mem ((hmem step).2 hstep),
      hwired.names_nodup.sublist List.filter_sublist, List.filter_sublist, hmem⟩

/-- A step with some inputs and one output, whose body returns nothing. -/
def relay (name : String) (inputs : List String) : NamedStep Id :=
  ⟨name, ⟨⟨inputs, ["out"]⟩, fun _ => .ok .empty⟩⟩

/-- Two cycles of two steps each, a step between them, and one behind them. -/
def twoCycles : Blueprint Id where
  name := "cycles"
  steps := [relay "a" ["x"], relay "b" ["x"], relay "c" ["x"], relay "d" ["x", "y"],
    relay "e" ["x"], relay "f" ["x"]]
  edges := [⟨"a", "out", "b", "x"⟩, ⟨"b", "out", "a", "x"⟩, ⟨"b", "out", "c", "x"⟩,
    ⟨"c", "out", "d", "y"⟩, ⟨"d", "out", "e", "x"⟩, ⟨"e", "out", "d", "x"⟩,
    ⟨"e", "out", "f", "x"⟩]
  constants := []

/-- Neither the step between the two cycles nor the one behind them is reported. -/
theorem twoCycles_report :
    Pass twoCycles.wiringChecks ∧
      twoCycles.build = .error (.cyclicDependency "cycles" ["a", "b", "d", "e"]) ∧
      ∀ step, step ∈ ["a", "b", "d", "e"] ↔ TransGen twoCycles.Feeds step step := by
  have hpass : Pass twoCycles.wiringChecks := by
    simp [wiringChecks, twoCycles, scan, nameChecks, edgeChecks, inputCheck, stepNames, relay,
      DeclaresInput, DeclaresOutput, Edge.port, ports]
  have hbuild : twoCycles.build = .error (.cyclicDependency "cycles" ["a", "b", "d", "e"]) := by
    cbv
  obtain ⟨-, -, -, -, hmem⟩ := (build_cycle_report hpass).2 _ _ hbuild
  exact ⟨hpass, hbuild, hmem⟩

end Tableflow.Blueprint
