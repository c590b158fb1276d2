import Mathlib.Data.List.Nodup
import Mathlib.Data.Fintype.Card
import Mathlib.Data.Fintype.List
import Tableflow.Pipeline.Schedule

/-!
# The listing of the vertices

A vertex is ready behind a list if it is not in the list and all vertices that it names are. A list
is `Greedy` if each of its vertices is the least one that is ready behind those before it. Every
stage of `Precedence.progress` has listed greedily (`Precedence.progress_stage`): its counters count
the unlisted predecessors and its `ready` holds exactly the vertices that are ready. After as many
advances as there are vertices none is ready any more (`Precedence.ready_progress_eq_nil`), so the
last stage has listed all vertices that can be listed.
-/

namespace Tableflow

variable {n : Nat}

namespace Precedence

variable (p : Precedence n)

/-- A vertex is among those that another one names. -/
def Before (i j : Fin n) : Prop := i ∈ p.predecessors.get j

instance (i j : Fin n) : Decidable (p.Before i j) := inferInstanceAs (Decidable (_ ∈ _))

/-- A vertex can come next behind a list. -/
def IsReady (done : List (Fin n)) (i : Fin n) : Prop := i ∉ done ∧ ∀ j, p.Before j i → j ∈ done

/-- Each vertex of a list is the least one that is ready behind those before it. -/
inductive Greedy : List (Fin n) → Prop
  | nil : Greedy []
  | snoc {done : List (Fin n)} {i : Fin n} : Greedy done → p.IsReady done i →
      (∀ j, p.IsReady done j → i ≤ j) → Greedy (done ++ [i])

variable {p}

theorem get_successors (i : Fin n) :
    p.successors.get i = (List.finRange n).filter fun j => i ∈ p.predecessors.get j :=
  Vector.getElem_ofFn i.isLt

theorem mem_successors {i j : Fin n} : j ∈ p.successors.get i ↔ p.Before i j := by
  simp [get_successors, Before]

theorem nodup_successors (i : Fin n) : (p.successors.get i).Nodup := by
  rw [get_successors]
  exact (List.nodup_finRange _).sublist List.filter_sublist

namespace Greedy

variable {done : List (Fin n)}

theorem nodup (h : p.Greedy done) : done.Nodup := by
  induction h with
  | nil => exact .nil
  | snoc _ hready _ ih =>
    rw [← List.concat_eq_append]
    exact ih.concat hready.1

/-- With a vertex all that it names are listed. -/
theorem mem_of_before (h : p.Greedy done) {i j : Fin n} (hij : p.Before i j) (hj : j ∈ done) :
    i ∈ done := by
  induction h with
  | nil => simp at hj
  | snoc _ hready _ ih =>
    rcases List.mem_append.1 hj with hj | hj
    · exact List.mem_append_left _ (ih hj)
    · obtain rfl := List.mem_singleton.1 hj
      exact List.mem_append_left _ (hready.2 i hij)

/-- What is said of the last vertex of a greedy list holds at each of its places. -/
theorem at_split (h : p.Greedy done) {front back : List (Fin n)} {i : Fin n}
    (he : done = front ++ i :: back) : p.IsReady front i ∧ ∀ j, p.IsReady front j → i ≤ j := by
  induction h generalizing back with
  | nil => simp at he
  | @snoc done k hdone hready hleast ih =>
    rcases List.eq_nil_or_concat back with rfl | ⟨back, l, rfl⟩
    · obtain ⟨rfl, hk⟩ := List.append_inj' he rfl
      obtain rfl := (List.cons.inj hk).1
      exact ⟨hready, hleast⟩
    · rw [List.concat_eq_append, ← List.cons_append, ← List.append_assoc] at he
      exact ih (List.append_inj' he rfl).1

/-- Behind one more vertex those are ready that were so before and those that waited for it only. -/
theorem isReady_snoc_iff (h : p.Greedy done) {i j : Fin n} (hi : p.IsReady done i) :
    p.IsReady (done ++ [i]) j ↔
      (p.IsReady done j ∧ j ≠ i) ∨ (p.Before i j ∧ ∀ k, p.Before k j → k ∈ done ++ [i]) := by
  constructor
  · rintro ⟨hnot, hpreds⟩
    rw [List.mem_append, List.mem_singleton, not_or] at hnot
    by_cases hij : p.Before i j
    · exact .inr ⟨hij, hpreds⟩
    · refine .inl ⟨⟨hnot.1, fun k hk => ?_⟩, hnot.2⟩
      rcases List.mem_append.1 (hpreds k hk) with hk' | hk'
      · exact hk'
      · exact absurd (List.mem_singleton.1 hk' ▸ hk) hij
  · rintro (⟨⟨hnot, hpreds⟩, hne⟩ | ⟨hij, hpreds⟩)
    · exact ⟨by simp [hnot, hne], fun k hk => List.mem_append_left _ (hpreds k hk)⟩
    · refine ⟨?_, hpreds⟩
      rw [List.mem_append, List.mem_singleton]
      rintro (hj | rfl)
      · exact hi.1 (h.mem_of_before hij hj)
      · exact hi.1 (hi.2 j hij)

end Greedy

end Precedence

/-! ## Counting and readiness -/

namespace Progress

@[simp] theorem mem_insertAscending {i j : Fin n} {l : List (Fin n)} :
    j ∈ insertAscending i l ↔ j = i ∨ j ∈ l := by
  induction l with
  | nil => simp [insertAscending]
  | cons k l ih =>
    unfold insertAscending
    grind

theorem insertAscending_pairwise {i : Fin n} {l : List (Fin n)} (h : l.Pairwise (· < ·))
    (hi : i ∉ l) : (insertAscending i l).Pairwise (· < ·) := by
  induction l with
  | nil => simp [insertAscending]
  | cons k l ih =>
    rw [List.pairwise_cons] at h
    rw [List.mem_cons, not_or] at hi
    unfold insertAscending
    split
    · next hik =>
      refine List.pairwise_cons.2 ⟨fun j hj => ?_, List.pairwise_cons.2 h⟩
      rcases List.mem_cons.1 hj with rfl | hj
      · exact hik
      · exact hik.trans (h.1 j hj)
    · next hik =>
      refine List.pairwise_cons.2 ⟨fun j hj => ?_, ih h.2 hi.2⟩
      rcases mem_insertAscending.1 hj with rfl | hj
      · exact lt_of_le_of_ne (not_lt.1 hik) (Ne.symm hi.1)
      · exact h.1 j hj

/-- What a round of releases does: the counters of the vertices in the round go down by one, and
those whose counter comes to zero join the ready ones. -/
structure Released (s : Progress n) (round : List (Fin n)) (t : Progress n) : Prop where
  pending : ∀ j : Fin n,
    t.pending.get j = if j ∈ round then s.pending.get j - 1 else s.pending.get j
  mem_ready : ∀ j : Fin n, j ∈ t.ready ↔ j ∈ s.ready ∨ (j ∈ round ∧ s.pending.get j - 1 = 0)
  ascending : t.ready.Pairwise (· < ·)

@[simp] theorem emitted_foldl_release (s : Progress n) (round : List (Fin n)) :
    (round.foldl release s).emitted = s.emitted := by
  induction round generalizing s with
  | nil => rfl
  | cons i round ih => rw [List.foldl_cons, ih, release]

theorem emitted_advance {s : Progress n} {i : Fin n} {rest : List (Fin n)}
    (h : s.ready = i :: rest) (next : Vector (List (Fin n)) n) :
    (s.advance next).emitted = s.emitted ++ [i] := by
  rw [advance, h]
  exact emitted_foldl_release ..

theorem pending_release (s : Progress n) (i j : Fin n) :
    (s.release i).pending.get j = if i = j then s.pending.get j - 1 else s.pending.get j := by
  have hset : (s.release i).pending.get j =
      if (i : Nat) = j then s.pending.get i - 1 else s.pending.get j :=
    Vector.getElem_set i.isLt j.isLt
  rw [hset]
  by_cases h : i = j
  · rw [h, if_pos rfl, if_pos rfl]
  · rw [if_neg h, if_neg (Fin.val_ne_of_ne h)]

theorem mem_ready_release (s : Progress n) (i j : Fin n) :
    j ∈ (s.release i).ready ↔ j ∈ s.ready ∨ (j = i ∧ s.pending.get j - 1 = 0) := by
  unfold release
  dsimp only
  split
  · next h =>
    rw [mem_insertAscending]
    grind
  · grind

theorem foldl_release {round : List (Fin n)} (hround : round.Nodup) {s : Progress n}
    (hs : s.ready.Pairwise (· < ·)) (hnew : ∀ j ∈ round, j ∉ s.ready) :
    s.Released round (round.foldl release s) := by
  induction round generalizing s with
  | nil => exact ⟨by simp, by simp, hs⟩
  | cons i round ih =>
    obtain ⟨hi, hround⟩ := List.nodup_cons.1 hround
    have hs' : (s.release i).ready.Pairwise (· < ·) := by
      unfold release
      dsimp only
      split
      · exact insertAscending_pairwise hs (hnew i List.mem_cons_self)
      · exact hs
    have hnew' : ∀ j ∈ round, j ∉ (s.release i).ready := by
      intro j hj
      rw [mem_ready_release]
      rintro (hr | ⟨rfl, -⟩)
      · exact hnew j (List.mem_cons_of_mem _ hj) hr
      · exact hi hj
    obtain ⟨hp, hr, ha⟩ := ih hround hs' hnew'
    refine ⟨fun j => ?_, fun j => ?_, ha⟩
    · rw [List.foldl_cons, hp, pending_release]
      grind
    · rw [List.foldl_cons, hr, pending_release, mem_ready_release]
      grind

end Progress

/-! ## Stages -/

namespace Precedence

/-- What is true of every stage: the listing is greedy, the counters count the predecessors that
are not listed, and the ready vertices are held ascending. -/
structure Stage (p : Precedence n) (s : Progress n) : Prop where
  greedy : p.Greedy s.emitted
  pending : ∀ i : Fin n,
    s.pending.get i = ((p.predecessors.get i).filter fun j => j ∉ s.emitted).length
  mem_ready : ∀ i, i ∈ s.ready ↔ p.IsReady s.emitted i
  ascending : s.ready.Pairwise (· < ·)

variable {p : Precedence n} {s : Progress n}

theorem filter_not_mem_snoc {preds done : List (Fin n)} {i : Fin n} (h : preds.Nodup) :
    (preds.filter fun j => j ∉ done ++ [i]) = (preds.filter fun j => j ∉ done).erase i := by
  rw [(h.sublist List.filter_sublist).erase_eq_filter, List.filter_filter]
  refine List.filter_congr fun j _ => ?_
  by_cases hj : j = i <;> simp [hj]

theorem length_filter_not_mem_eq_zero_iff {preds done : List (Fin n)} :
    (preds.filter fun j => j ∉ done).length = 0 ↔ ∀ j ∈ preds, j ∈ done := by
  simp [List.length_eq_zero_iff, List.filter_eq_nil_iff]

theorem start_stage (p : Precedence n) : p.Stage p.start := by
  refine ⟨.nil, fun i => ?_, fun i => ?_, ?_⟩
  · have hcount : p.start.pending.get i = (p.predecessors.get i).length := Vector.getElem_map ..
    rw [hcount]
    simp [start]
  · simp [start, IsReady, Before, List.eq_nil_iff_forall_not_mem]
  · exact (List.pairwise_lt_finRange n).sublist List.filter_sublist

namespace Stage

theorem pending_eq_zero_iff (h : p.Stage s) (i : Fin n) :
    s.pending.get i = 0 ↔ ∀ j, p.Before j i → j ∈ s.emitted := by
  rw [h.pending, length_filter_not_mem_eq_zero_iff]
  rfl

/-- The vertex that is listed next is the least one that is ready. -/
theorem head_ready (h : p.Stage s) {i : Fin n} {rest : List (Fin n)} (hi : s.ready = i :: rest) :
    p.IsReady s.emitted i ∧ ∀ j, p.IsReady s.emitted j → i ≤ j := by
  refine ⟨(h.mem_ready i).1 (hi ▸ List.mem_cons_self), fun j hj => ?_⟩
  rcases List.mem_cons.1 (hi ▸ (h.mem_ready j).2 hj) with rfl | hj
  · exact le_rfl
  · exact ((List.pairwise_cons.1 (hi ▸ h.ascending)).1 j hj).le

/-- The counters after a round of releases count the predecessors that are not listed then. -/
theorem pending_snoc (h : p.Stage s) {i : Fin n} (hi : i ∉ s.emitted) (j : Fin n) :
    (if j ∈ p.successors.get i then s.pending.get j - 1 else s.pending.get j) =
      ((p.predecessors.get j).filter fun k => k ∉ s.emitted ++ [i]).length := by
  rw [filter_not_mem_snoc (p.nodup j), h.pending, List.length_erase]
  simp only [mem_successors, List.mem_filter, Before]
  grind

theorem advance (h : p.Stage s) : p.Stage (s.advance p.successors) := by
  unfold Progress.advance
  split
  · exact h
  · next i rest hi =>
    obtain ⟨hready, hleast⟩ := h.head_ready hi
    have hasc := List.pairwise_cons.1 (hi ▸ h.ascending)
    -- a successor of the vertex has waited for it, so it is not among the ready ones
    have hnew : ∀ j ∈ p.successors.get i, j ∉ rest := by
      intro j hj hrest
      have hj' := (h.mem_ready j).1 (hi ▸ List.mem_cons_of_mem _ hrest)
      exact hready.1 (hj'.2 i (mem_successors.1 hj))
    have hrest : ∀ j, j ∈ rest ↔ p.IsReady s.emitted j ∧ j ≠ i := by
      intro j
      rw [← h.mem_ready, hi, List.mem_cons]
      exact ⟨fun hj => ⟨.inr hj, (hasc.1 j hj).ne'⟩, fun hj => hj.1.resolve_left hj.2⟩
    obtain ⟨hpending, hmem, hpair⟩ :=
      Progress.foldl_release (nodup_successors i)
        (s := { s with emitted := s.emitted ++ [i], ready := rest }) hasc.2 hnew
    dsimp only at hpending hmem
    refine ⟨?_, fun j => ?_, fun j => ?_, hpair⟩
    · rw [Progress.emitted_foldl_release]
      exact .snoc h.greedy hready hleast
    · rw [Progress.emitted_foldl_release, hpending, h.pending_snoc hready.1]
    · rw [hmem, Progress.emitted_foldl_release, h.greedy.isReady_snoc_iff hready, hrest,
        mem_successors]
      refine or_congr_right (and_congr_right fun hij => ?_)
      have hcount := h.pending_snoc hready.1 j
      rw [if_pos (mem_successors.2 hij)] at hcount
      rw [hcount, length_filter_not_mem_eq_zero_iff]
      rfl

end Stage

/-! ## The last stage -/

variable (p)

theorem progress_succ (count : Nat) :
    p.progress (count + 1) = (p.progress count).advance p.successors := rfl

theorem progress_stage (count : Nat) : p.Stage (p.progress count) := by
  induction count with
  | zero => exact p.start_stage
  | succ count ih => exact ih.advance

/-- Each advance lists a vertex, unless none is ready. -/
theorem length_emitted_progress (count : Nat) :
    (p.progress count).emitted.length = count ∨ (p.progress count).ready = [] := by
  induction count with
  | zero => exact .inl rfl
  | succ count ih =>
    rw [progress_succ]
    cases hready : (p.progress count).ready with
    | nil =>
      refine .inr ?_
      rw [Progress.advance, hready]
      exact hready
    | cons i rest =>
      refine .inl ?_
      have hlength := ih.resolve_right (by simp [hready])
      rw [Progress.emitted_advance hready, List.length_append, hlength, List.length_singleton]

theorem Greedy.perm_finRange {p : Precedence n} {l : List (Fin n)} (h : p.Greedy l)
    (hlength : l.length = n) : l.Perm (List.finRange n) :=
  (List.subperm_of_subset h.nodup fun i _ => List.mem_finRange i).perm_of_length_le
    (by rw [List.length_finRange, hlength])

/-- After as many advances as there are vertices no vertex is ready any more. -/
theorem ready_progress_eq_nil : (p.progress n).ready = [] := by
  have hstage := p.progress_stage n
  refine (p.length_emitted_progress n).elim (fun hlength => ?_) id
  rw [List.eq_nil_iff_forall_not_mem]
  intro i hi
  have hall := (hstage.greedy.perm_finRange hlength).mem_iff.2 (List.mem_finRange i)
  exact ((hstage.mem_ready i).1 hi).1 hall

end Precedence

end Tableflow
