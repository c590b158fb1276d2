import Mathlib
import Tableflow.Proofs.Blueprint.Order

/-!
# Reordered blueprints

Two blueprints are `Reordered` if they declare the same steps, edges and constants, each in any
order. The requirements do not look at the order (`Reordered.valid`), so both are built or neither
is, and the pipelines consist of the same bound steps (`Reordered.steps_perm`).
-/

namespace Tableflow.Blueprint

open Relation

variable {m : Type → Type}

/-- Two blueprints declare the same in any order; their names may differ. -/
structure Reordered (b b' : Blueprint m) : Prop where
  steps : b.steps.Perm b'.steps
  edges : b.edges.Perm b'.edges
  constants : b.constants.Perm b'.constants

variable {b b' : Blueprint m}

theorem Arranged.perm_boundSteps {p : Pipeline m} (h : b.Arranged p) :
    p.steps.Perm b.boundSteps := by
  obtain ⟨order, -, hperm, rfl⟩ := h
  refine (hperm.map fun i => b.boundSteps[i]).trans (.of_eq ?_)
  exact List.map_getElem_finRange ..

namespace Reordered

theorem symm (h : Reordered b b') : Reordered b' b :=
  ⟨h.steps.symm, h.edges.symm, h.constants.symm⟩

/-! ## Requirements -/

theorem perm_stepNames (h : Reordered b b') : b.stepNames.Perm b'.stepNames :=
  h.steps.map _

theorem perm_ports (h : Reordered b b') : b.ports.Perm b'.ports :=
  (h.edges.map _).append (h.constants.map _)

theorem declaresInput (h : Reordered b b') {step input : String}
    (hdeclares : b.DeclaresInput step input) : b'.DeclaresInput step input := by
  obtain ⟨s, hs, hname, hinput⟩ := hdeclares
  exact ⟨s, h.steps.subset hs, hname, hinput⟩

theorem declaresOutput (h : Reordered b b') {step output : String}
    (hdeclares : b.DeclaresOutput step output) : b'.DeclaresOutput step output := by
  obtain ⟨s, hs, hname, houtput⟩ := hdeclares
  exact ⟨s, h.steps.subset hs, hname, houtput⟩

theorem feeds (h : Reordered b b') {source target : String} (hfeeds : b.Feeds source target) :
    b'.Feeds source target := by
  obtain ⟨e, he, hends⟩ := hfeeds
  exact ⟨e, h.edges.subset he, hends⟩

theorem wired (h : Reordered b b') (hwired : b.Wired) : b'.Wired where
  names_nodup := h.perm_stepNames.nodup_iff.1 hwired.names_nodup
  edge_declared e he :=
    (hwired.edge_declared e (h.edges.symm.subset he)).imp (h.perm_stepNames.subset ·)
      (h.perm_stepNames.subset ·)
  constant_declared c hc :=
    h.perm_stepNames.subset (hwired.constant_declared c (h.constants.symm.subset hc))
  output_declared e he := h.declaresOutput (hwired.output_declared e (h.edges.symm.subset he))
  edge_input_declared e he :=
    h.declaresInput (hwired.edge_input_declared e (h.edges.symm.subset he))
  constant_input_declared c hc :=
    h.declaresInput (hwired.constant_input_declared c (h.constants.symm.subset hc))
  ports_nodup := h.perm_ports.nodup_iff.1 hwired.ports_nodup
  input_bound s hs input hinput :=
    h.perm_ports.subset (hwired.input_bound s (h.steps.symm.subset hs) input hinput)

theorem valid (h : Reordered b b') (hvalid : b.Valid) : b'.Valid where
  toWired := h.wired hvalid.toWired
  acyclic step hcycle :=
    hvalid.acyclic step (TransGen.mono (fun _ _ => h.symm.feeds) step step hcycle)

/-- Both blueprints are built or neither is. -/
theorem build_iff (h : Reordered b b') : (∃ p, b.build = .ok p) ↔ ∃ p', b'.build = .ok p' := by
  rw [b.decides_build.exists_ok_iff, b'.decides_build.exists_ok_iff, pass_checks_iff,
    pass_checks_iff]
  exact ⟨h.valid, h.symm.valid⟩

/-! ## Bound steps -/

/-- An input is bound to the same source, since only one edge or constant ends at it. -/
theorem place_eq (h : Reordered b b') (hwired : b.Wired) (s : NamedStep m) :
    place b.allBindings s = place b'.allBindings s := by
  have hbindings : b.allBindings.Perm b'.allBindings :=
    (h.edges.map _).append (h.constants.map _)
  have hfind : ∀ input, (place b.allBindings s).bindings.find? input =
      (place b'.allBindings s).bindings.find? input := by
    intro input
    refine Option.ext fun source => ?_
    rw [find?_bindings_iff hwired.ports_nodup, find?_bindings_iff (h.wired hwired).ports_nodup]
    exact hbindings.mem_iff
  exact congrArg (BoundStep.mk s.name s.step) (Dictionary.ext_find? hfind)

theorem perm_boundSteps (h : Reordered b b') (hwired : b.Wired) :
    b.boundSteps.Perm b'.boundSteps := by
  rw [boundSteps, boundSteps, List.map_congr_left fun s _ => h.place_eq hwired s]
  exact h.steps.map _

/-- The pipelines consist of the same bound steps. -/
theorem steps_perm (h : Reordered b b') {p p' : Pipeline m} (hwired : b.Wired)
    (hp : b.Arranged p) (hp' : b'.Arranged p') : p.steps.Perm p'.steps :=
  hp.perm_boundSteps.trans ((h.perm_boundSteps hwired).trans hp'.perm_boundSteps.symm)

end Reordered

end Tableflow.Blueprint
