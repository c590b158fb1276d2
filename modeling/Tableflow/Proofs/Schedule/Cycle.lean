import Mathlib.Data.Fintype.EquivFin
import Mathlib.Data.Set.Finite.Basic
import Mathlib.Order.WellFounded
import Tableflow.Proofs.Schedule.Listing

/-!
# Cycles

`Precedence.order` lists all vertices if none leads back to itself (`order_of_acyclic`), and
otherwise reports exactly those that do, ascending (`order_of_cyclic`). Three facts are behind
it. The search decides whether a walk through unvisited vertices leads to the target
(`search_eq_true_iff`). The vertices that still wait at the last stage are the unlisted ones, and a
vertex that leads back to itself is never listed, so the search among the waiting ones misses no
cycle. And each unlisted vertex names an unlisted one, so there is a cycle among them.
-/

namespace Tableflow

open Relation

variable {n : Nat}

namespace Precedence

/-! ## The search -/

/-- One edge of a walk through some vertices: it starts from one of them. -/
def Through (next : Vector (List (Fin n)) n) (within : List (Fin n)) (i j : Fin n) : Prop :=
  i ∈ within ∧ j ∈ next.get i

variable {next : Vector (List (Fin n)) n} {within rest : List (Fin n)} {i target : Fin n}

theorem walk_mono (h : rest ⊆ within) {v : Fin n}
    (hwalk : ReflTransGen (Through next rest) v target) :
    ReflTransGen (Through next within) v target :=
  ReflTransGen.mono (fun _ _ hedge => ⟨h hedge.1, hedge.2⟩) _ _ hwalk

/-- A walk to the target either misses a vertex or can be started behind that vertex's last
occurrence in it. -/
theorem walk_avoid (hothers : ∀ v ∈ within, v ≠ i → v ∈ rest) {v : Fin n}
    (hwalk : ReflTransGen (Through next within) v target) :
    ReflTransGen (Through next rest) v target ∨
      ∃ w ∈ next.get i, ReflTransGen (Through next rest) w target := by
  induction hwalk using ReflTransGen.head_induction_on with
  | refl => exact .inl .refl
  | @head v w hvw _ ih =>
    obtain ⟨hv, hw⟩ := hvw
    rcases ih with ih | ih
    · by_cases hvi : v = i
      · subst hvi
        exact .inr ⟨w, hw, ih⟩
      · exact .inl (.head ⟨hothers v hv hvi, hw⟩ ih)
    · exact .inr ih

/-- A stack leads to the target as it does with its top vertex, an unvisited one, taken off for the
successors of that vertex, which is not walked through any more. -/
theorem exists_walk_expand (hne : i ≠ target) (hi : i ∈ within) (hrest : rest ⊆ within)
    (hothers : ∀ v ∈ within, v ≠ i → v ∈ rest) {pushed : List (Fin n)}
    (hpushed : ∀ v, v ∈ pushed ↔ v ∈ next.get i) (stack : List (Fin n)) :
    (∃ v ∈ pushed ++ stack, ReflTransGen (Through next rest) v target) ↔
      ∃ v ∈ i :: stack, ReflTransGen (Through next within) v target := by
  constructor
  · rintro ⟨v, hv, hwalk⟩
    have hwalk' := walk_mono hrest hwalk
    rcases List.mem_append.1 hv with hv | hv
    · exact ⟨i, List.mem_cons_self, .head ⟨hi, (hpushed v).1 hv⟩ hwalk'⟩
    · exact ⟨v, List.mem_cons_of_mem _ hv, hwalk'⟩
  · rintro ⟨v, hv, hwalk⟩
    rcases walk_avoid hothers hwalk with hmiss | ⟨w, hw, hmiss⟩
    · rcases List.mem_cons.1 hv with rfl | hv
      · -- a walk from the vertex has an edge, as the vertex is not the target
        rcases hmiss.cases_head with rfl | ⟨w, hvw, hmiss⟩
        · exact absurd rfl hne
        · exact ⟨w, List.mem_append_left _ ((hpushed w).2 hvw.2), hmiss⟩
      · exact ⟨v, List.mem_append_right _ hv, hmiss⟩
    · exact ⟨w, List.mem_append_left _ ((hpushed w).2 hw), hmiss⟩

/-- No walk to the target goes through a vertex that is not one of the unvisited ones. -/
theorem exists_walk_skip (hne : i ≠ target) (hi : i ∉ within) (stack : List (Fin n)) :
    (∃ v ∈ stack, ReflTransGen (Through next within) v target) ↔
      ∃ v ∈ i :: stack, ReflTransGen (Through next within) v target := by
  constructor
  · rintro ⟨v, hv, hwalk⟩
    exact ⟨v, List.mem_cons_of_mem _ hv, hwalk⟩
  · rintro ⟨v, hv, hwalk⟩
    rcases List.mem_cons.1 hv with rfl | hv
    · rcases hwalk.cases_head with rfl | ⟨w, hvw, -⟩
      · exact absurd rfl hne
      · exact absurd hvw.1 hi
    · exact ⟨v, hv, hwalk⟩

theorem search_eq_true_iff {unvisited stack : List (Fin n)} :
    search next target unvisited stack = true ↔
      ∃ i ∈ stack, ReflTransGen (Through next unvisited) i target := by
  fun_induction search next target unvisited stack with
  | case1 => simp
  | case2 unvisited stack => exact iff_of_true rfl ⟨target, List.mem_cons_self, .refl⟩
  | case3 unvisited i stack hne hi ih =>
    rw [ih]
    exact exists_walk_expand hne hi List.erase_subset
      (fun v hv hvi => (List.mem_erase_of_ne hvi).2 hv) (fun v => Iff.rfl) stack
  | case4 unvisited i stack hne hi ih =>
    rw [ih]
    exact exists_walk_skip hne hi stack

/-! ## Vertices that lead back to themselves -/

variable {p : Precedence n}

/-- Along a closed walk every vertex leads back to itself. -/
theorem walk_through_cycle {within : List (Fin n)}
    (hwithin : ∀ i, TransGen p.Before i i → i ∈ within) {i v : Fin n}
    (hto : TransGen p.Before i v) (hback : ReflTransGen p.Before v i) :
    ReflTransGen (Through p.successors within) v i := by
  induction hback using ReflTransGen.head_induction_on with
  | refl => exact .refl
  | @head v w hvw hwi ih =>
    have hv : TransGen p.Before v v := .head' hvw (hwi.trans hto.to_reflTransGen)
    exact .head ⟨hwithin v hv, mem_successors.2 hvw⟩ (ih (hto.tail hvw))

/-- The search among vertices that hold all cycles finds a way back exactly from the vertices that
lead back to themselves. -/
theorem reaches_self_iff {within : List (Fin n)}
    (hwithin : ∀ i, TransGen p.Before i i → i ∈ within) (i : Fin n) :
    reaches p.successors within i i = true ↔ TransGen p.Before i i := by
  rw [reaches, search_eq_true_iff, TransGen.head'_iff]
  constructor
  · rintro ⟨v, hv, hwalk⟩
    exact ⟨v, mem_successors.1 hv,
      ReflTransGen.mono (fun _ _ hedge => mem_successors.1 hedge.2) _ _ hwalk⟩
  · rintro ⟨v, hv, hwalk⟩
    exact ⟨v, mem_successors.2 hv, walk_through_cycle hwithin (.single hv) hwalk⟩

theorem Greedy.idxOf_lt {done : List (Fin n)} (h : p.Greedy done) {i j : Fin n}
    (hij : p.Before i j) (hj : j ∈ done) : done.idxOf i < done.idxOf j := by
  obtain ⟨front, back, rfl⟩ := List.append_of_mem hj
  have hready := (h.at_split rfl).1
  rw [List.idxOf_append_of_mem (hready.2 i hij), List.idxOf_append_of_notMem hready.1]
  exact Nat.lt_add_right _ (List.idxOf_lt_length_of_mem (hready.2 i hij))

/-- What is listed greedily does not lead back to itself. -/
theorem Greedy.not_mem_of_cycle {done : List (Fin n)} (h : p.Greedy done) {i : Fin n}
    (hi : TransGen p.Before i i) : i ∉ done := by
  intro hmem
  have key : ∀ j, TransGen p.Before i j → j ∈ done → done.idxOf i < done.idxOf j := by
    intro j hij
    induction hij with
    | single hij => exact h.idxOf_lt hij
    | tail _ hjk ih =>
      intro hk
      exact (ih (h.mem_of_before hjk hk)).trans (h.idxOf_lt hjk hk)
  exact lt_irrefl _ (key i hi hmem)

/-- Without cycles every set of vertices has one that names none of the set. -/
theorem exists_minimal (hacyclic : ∀ i, ¬ TransGen p.Before i i) (left : Fin n → Prop)
    (hleft : ∃ i, left i) : ∃ i, left i ∧ ∀ j, p.Before j i → ¬ left j := by
  have : Std.Irrefl (TransGen p.Before) := ⟨hacyclic⟩
  have hwf : WellFounded (TransGen p.Before) := Finite.wellFounded_of_trans_of_irrefl _
  obtain ⟨i, hi, hmin⟩ := hwf.has_min {i | left i} hleft
  exact ⟨i, hi, fun j hj hl => hmin j hl (.single hj)⟩

/-! ## The order and the report -/

variable (p)

theorem mem_waiting_progress {i : Fin n} :
    i ∈ (p.progress n).waiting ↔ i ∉ (p.progress n).emitted := by
  have hstage := p.progress_stage n
  have hnone : ¬ p.IsReady (p.progress n).emitted i := by
    rw [← hstage.mem_ready, p.ready_progress_eq_nil]
    exact List.not_mem_nil
  rw [Progress.waiting, List.mem_filter, decide_eq_true_iff, Nat.pos_iff_ne_zero, ne_eq,
    hstage.pending_eq_zero_iff]
  constructor
  · rintro ⟨-, hwaits⟩ hi
    exact hwaits fun j hj => hstage.greedy.mem_of_before hj hi
  · exact fun hi => ⟨List.mem_finRange i, fun hpreds => hnone ⟨hi, hpreds⟩⟩

theorem cycle_progress [DecidablePred fun i => TransGen p.Before i i] :
    p.cycle (p.progress n) = (List.finRange n).filter fun i => TransGen p.Before i i := by
  have hwithin : ∀ i, TransGen p.Before i i → i ∈ (p.progress n).waiting := fun i hi =>
    p.mem_waiting_progress.2 ((p.progress_stage n).greedy.not_mem_of_cycle hi)
  have hreaches : ∀ i, reaches p.successors (p.progress n).waiting i i =
      decide (TransGen p.Before i i) := fun i => by
    rw [Bool.eq_iff_iff, reaches_self_iff hwithin, decide_eq_true_iff]
  rw [cycle]
  simp only [hreaches]
  rw [Progress.waiting, List.filter_filter]
  refine List.filter_congr fun i hi => ?_
  rw [Bool.and_eq_left_iff_imp, decide_eq_true_iff]
  intro hcycle
  exact (List.mem_filter.1 (hwithin i hcycle)).2

/-- If no vertex leads back to itself, then all are listed. -/
theorem length_emitted_of_acyclic (hacyclic : ∀ i, ¬ TransGen p.Before i i) :
    (p.progress n).emitted.length = n := by
  have hstage := p.progress_stage n
  have hall : ∀ i, i ∈ (p.progress n).emitted := by
    by_contra! hleft
    obtain ⟨i, hi, hmin⟩ := exists_minimal hacyclic (· ∉ (p.progress n).emitted) hleft
    have hready : p.IsReady (p.progress n).emitted i := ⟨hi, fun j hj => not_not.1 (hmin j hj)⟩
    rw [← hstage.mem_ready, p.ready_progress_eq_nil] at hready
    exact List.not_mem_nil hready
  have hperm : (p.progress n).emitted.Perm (List.finRange n) :=
    (List.perm_ext_iff_of_nodup hstage.greedy.nodup (List.nodup_finRange n)).2 fun i =>
      iff_of_true (hall i) (List.mem_finRange i)
  rw [hperm.length_eq, List.length_finRange]

theorem order_of_acyclic (hacyclic : ∀ i, ¬ TransGen p.Before i i) :
    ∃ order, p.order = .ok order ∧ p.Greedy order ∧ order.Perm (List.finRange n) := by
  have hlength := p.length_emitted_of_acyclic hacyclic
  have hgreedy := (p.progress_stage n).greedy
  refine ⟨(p.progress n).emitted, ?_, hgreedy, hgreedy.perm_finRange hlength⟩
  simp only [order, hlength, if_true]

theorem order_of_cyclic [DecidablePred fun i => TransGen p.Before i i] {i : Fin n}
    (hi : TransGen p.Before i i) :
    p.order = .error ((List.finRange n).filter fun j => TransGen p.Before j j) := by
  have hgreedy := (p.progress_stage n).greedy
  have hlength : (p.progress n).emitted.length ≠ n := by
    intro hlength
    refine hgreedy.not_mem_of_cycle hi ?_
    exact (hgreedy.perm_finRange hlength).mem_iff.2 (List.mem_finRange i)
  simp only [order, hlength, if_false, cycle_progress]

end Precedence

end Tableflow
