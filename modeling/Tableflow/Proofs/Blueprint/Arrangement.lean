import Tableflow.Proofs.Blueprint.Wiring
import Tableflow.Proofs.Schedule.Cycle

/-!
# Arranging the steps of a blueprint

The precedence among the bound steps of a wired blueprint is the relation `Blueprint.Feeds` among
their names (`before_iff`, `transGen_before_iff`). So `arrange` puts the steps into the order of a
greedy list of their numbers if no step feeds itself (`arrange_of_acyclic`) and reports exactly the
steps that do otherwise (`arrange_of_cyclic`). A list of numbers in which none stands twice never
finds an empty slot (`takeSlots_eq_map`), so there is no third outcome.
-/

namespace Tableflow.Blueprint

open Relation

variable {m : Type → Type} {b : Blueprint m}

/-! ## Numbers and names -/

/-- The name of a bound step by its number. -/
def nameAt (b : Blueprint m) (i : Fin b.boundSteps.length) : String := b.boundSteps[i].name

theorem map_nameAt_finRange : (List.finRange b.boundSteps.length).map b.nameAt = b.stepNames := by
  have hget : (List.finRange b.boundSteps.length).map (fun i => b.boundSteps[i]) = b.boundSteps :=
    List.map_getElem_finRange ..
  calc (List.finRange b.boundSteps.length).map b.nameAt
      = ((List.finRange b.boundSteps.length).map fun i => b.boundSteps[i]).map (·.name) := by
        rw [List.map_map]
        rfl
    _ = b.boundSteps.map (·.name) := by rw [hget]
    _ = b.stepNames := by
        rw [boundSteps, List.map_map]
        rfl

theorem nameAt_injective (h : b.stepNames.Nodup) : Function.Injective b.nameAt := by
  rw [← map_nameAt_finRange] at h
  intro i j hij
  exact List.inj_on_of_nodup_map h (List.mem_finRange i) (List.mem_finRange j) hij

theorem mem_stepNames_iff {name : String} : name ∈ b.stepNames ↔ ∃ i, b.nameAt i = name := by
  rw [← map_nameAt_finRange, List.mem_map]
  simp

/-- The step with a number is one of the blueprint with its bindings. -/
theorem exists_place_eq (i : Fin b.boundSteps.length) :
    ∃ s ∈ b.steps, b.boundSteps[i] = place b.allBindings s := by
  have hmem : b.boundSteps[i] ∈ b.boundSteps := List.getElem_mem _
  obtain ⟨s, hs, he⟩ := List.mem_map.1 hmem
  exact ⟨s, hs, he.symm⟩

theorem before_iff (h : b.Wired) {i j : Fin b.boundSteps.length} :
    (precedence b.boundSteps).Before i j ↔ b.Feeds (b.nameAt i) (b.nameAt j) := by
  obtain ⟨s, -, hs⟩ := exists_place_eq j
  have hname : b.nameAt j = s.name := by rw [nameAt, hs, place]
  rw [hname, ← mem_predecessors_iff h.ports_nodup, ← hs]
  simp [Precedence.Before, get_predecessors, predecessorsAt, nameAt]

theorem transGen_before_iff (h : b.Wired) {i j : Fin b.boundSteps.length} :
    TransGen (precedence b.boundSteps).Before i j ↔
      TransGen b.Feeds (b.nameAt i) (b.nameAt j) := by
  constructor
  · exact fun hij => TransGen.lift b.nameAt (fun _ _ hedge => (before_iff h).1 hedge) _ _ hij
  · intro hij
    -- what is fed is declared, so a walk along names is one along numbers
    have key : ∀ name, TransGen b.Feeds (b.nameAt i) name →
        ∃ k, b.nameAt k = name ∧ TransGen (precedence b.boundSteps).Before i k := by
      intro name hname
      induction hname with
      | single hedge =>
        obtain ⟨e, he, -, rfl⟩ := id hedge
        obtain ⟨k, hk⟩ := mem_stepNames_iff.1 (h.edge_declared e he).2
        exact ⟨k, hk, .single ((before_iff h).2 (hk ▸ hedge))⟩
      | tail _ hedge ih =>
        obtain ⟨k, rfl, hik⟩ := ih
        obtain ⟨e, he, -, rfl⟩ := id hedge
        obtain ⟨l, hl⟩ := mem_stepNames_iff.1 (h.edge_declared e he).2
        exact ⟨l, hl, hik.tail ((before_iff h).2 (hl ▸ hedge))⟩
    obtain ⟨k, hk, hik⟩ := key _ hij
    rwa [nameAt_injective h.names_nodup hk] at hik

/-- A step that feeds itself is declared. -/
theorem mem_stepNames_of_cycle (h : b.Wired) {name : String} (hname : TransGen b.Feeds name name) :
    name ∈ b.stepNames := by
  obtain ⟨_, ⟨e, he, rfl, -⟩, -⟩ := TransGen.head'_iff.1 hname
  exact (h.edge_declared e he).1

/-! ## Slots -/

theorem takeSlots_eq_map {α : Type} {n : Nat} {slots : Vector (Option α) n} {f : Fin n → α}
    {order : List (Fin n)} (hnodup : order.Nodup) (h : ∀ i ∈ order, slots.get i = some (f i)) :
    takeSlots slots order = order.map f := by
  induction order generalizing slots with
  | nil => rfl
  | cons i rest ih =>
    obtain ⟨hi, hrest⟩ := List.nodup_cons.1 hnodup
    have hslots : ∀ j ∈ rest, (slots.set i none i.isLt).get j = some (f j) := by
      intro j hj
      have hij : (i : Nat) ≠ j := fun hij => hi (Fin.ext hij ▸ hj)
      exact (Vector.getElem_set_ne i.isLt j.isLt hij).trans (h j (List.mem_cons_of_mem _ hj))
    rw [takeSlots, h i List.mem_cons_self, List.map_cons, ih hrest hslots]

/-! ## The arrangement -/

/-- A pipeline holds all steps of a blueprint with their bindings, in the order of a greedy list of
their numbers. -/
def Arranged (b : Blueprint m) (p : Pipeline m) : Prop :=
  ∃ order, (precedence b.boundSteps).Greedy order ∧
    order.Perm (List.finRange b.boundSteps.length) ∧
    p = ⟨b.name, order.map fun i => b.boundSteps[i]⟩

theorem arrange_of_acyclic (h : b.Wired) (hacyclic : ∀ step, ¬ TransGen b.Feeds step step) :
    ∃ p, arrange b.name b.boundSteps = .ok p ∧ b.Arranged p := by
  obtain ⟨order, horder, hgreedy, hperm⟩ := (precedence b.boundSteps).order_of_acyclic
    fun i hi => hacyclic _ ((transGen_before_iff h).1 hi)
  refine ⟨⟨b.name, order.map fun i => b.boundSteps[i]⟩, ?_, order, hgreedy, hperm, rfl⟩
  have hslots : takeSlots (Vector.ofFn fun i : Fin b.boundSteps.length => some b.boundSteps[i])
      order = order.map fun i => b.boundSteps[i] :=
    takeSlots_eq_map hgreedy.nodup fun i _ => Vector.getElem_ofFn i.isLt
  simp only [arrange, horder, hslots, List.length_map, if_true]

theorem arrange_of_cyclic (h : b.Wired) {step : String} (hstep : TransGen b.Feeds step step) :
    arrange b.name b.boundSteps = .error (.cyclicDependency b.name b.cyclicSteps) := by
  classical
  obtain ⟨i, rfl⟩ := mem_stepNames_iff.1 (mem_stepNames_of_cycle h hstep)
  have horder := (precedence b.boundSteps).order_of_cyclic ((transGen_before_iff h).2 hstep)
  have hnames : ((List.finRange b.boundSteps.length).filter fun j =>
      TransGen (precedence b.boundSteps).Before j j).map b.nameAt = b.cyclicSteps := by
    rw [cyclicSteps, ← map_nameAt_finRange, List.filter_map]
    refine congrArg (List.map b.nameAt) (List.filter_congr fun j _ => ?_)
    simp only [Function.comp_apply, transGen_before_iff h]
  rw [arrange, horder, ← hnames]
  rfl

end Tableflow.Blueprint
