import Tableflow.Proofs.Schedule.Cycle

/-!
# The rounds of the listing

An advance of `Precedence.progress` is a round: the least ready vertex is taken and listed
(`Progress.take`), and then its successors are released one after another, each of which may join
the ready vertices (`Progress.joining`). `Precedence.joined` keeps account of all vertices that ever
joined them. They are the listed ones and the ones that are ready now (`Precedence.joined_perm`), so
none joins twice.

The main statement is `Precedence.listing_safe`: whatever the vertices name, cycles and the vertex
itself included, the counters and the ready vertices are right after each round, no counter is
brought down from zero within one (`Precedence.Stage.pending_pos`), and there are at most as many
rounds as vertices (`Precedence.exists_rounds`).
-/

namespace Tableflow

variable {n : Nat}

/-! ## A round -/

namespace Progress

/-- The stage at which a vertex has been listed and none of its successors has been released. -/
def take (s : Progress n) (i : Fin n) (rest : List (Fin n)) : Progress n :=
  { s with emitted := s.emitted ++ [i], ready := rest }

/-- The vertices that a number of releases puts among the ready ones, in this order. -/
def joining (s : Progress n) : List (Fin n) → List (Fin n)
  | [] => []
  | i :: round =>
    if s.pending.get i - 1 = 0 then i :: (s.release i).joining round
    else (s.release i).joining round

/-- The vertices that an advance puts among the ready ones. -/
def newcomers (next : Vector (List (Fin n)) n) (s : Progress n) : List (Fin n) :=
  match s.ready with
  | [] => []
  | i :: rest => (s.take i rest).joining (next.get i)

variable {s : Progress n} {i : Fin n} {rest : List (Fin n)} {next : Vector (List (Fin n)) n}

theorem advance_of_ready_nil (h : s.ready = []) (next : Vector (List (Fin n)) n) :
    s.advance next = s := by
  rw [advance, h]

theorem advance_of_ready (h : s.ready = i :: rest) (next : Vector (List (Fin n)) n) :
    s.advance next = (next.get i).foldl release (s.take i rest) := by
  rw [advance, h, take]

theorem insertAscending_perm (i : Fin n) (l : List (Fin n)) :
    (insertAscending i l).Perm (i :: l) := by
  induction l with
  | nil => exact .refl _
  | cons j l ih =>
    rw [insertAscending]
    split
    · exact .refl _
    · exact (ih.cons j).trans (.swap i j l)

theorem ready_release (s : Progress n) (i : Fin n) :
    (s.release i).ready =
      if s.pending.get i - 1 = 0 then insertAscending i s.ready else s.ready := rfl

theorem ready_foldl_release_perm (s : Progress n) (round : List (Fin n)) :
    (round.foldl release s).ready.Perm (s.ready ++ s.joining round) := by
  induction round generalizing s with
  | nil => simp [joining]
  | cons i round ih =>
    rw [List.foldl_cons, joining]
    refine (ih (s.release i)).trans ?_
    rw [ready_release]
    split
    · exact ((insertAscending_perm i s.ready).append_right _).trans List.perm_middle.symm
    · exact .refl _

/-- What an advance lists it takes from the ready vertices, and what is ready behind it was so
before or has joined in it. -/
theorem advance_perm (s : Progress n) (next : Vector (List (Fin n)) n) :
    ((s.advance next).emitted ++ (s.advance next).ready).Perm
      (s.emitted ++ s.ready ++ s.newcomers next) := by
  cases hready : s.ready with
  | nil => simp [advance_of_ready_nil hready, newcomers, hready]
  | cons i rest =>
    have hround := ready_foldl_release_perm (s.take i rest) (next.get i)
    rw [advance_of_ready hready, emitted_foldl_release, newcomers, hready]
    refine (hround.append_left _).trans (.of_eq ?_)
    simp [take]

/-- A release leaves the counters of the other vertices alone. -/
theorem pending_foldl_release_of_notMem {j : Fin n} {round : List (Fin n)} (h : j ∉ round)
    (s : Progress n) : (round.foldl release s).pending.get j = s.pending.get j := by
  induction round generalizing s with
  | nil => rfl
  | cons i round ih =>
    rw [List.mem_cons, not_or] at h
    rw [List.foldl_cons, ih h.2, pending_release, if_neg (Ne.symm h.1)]

end Progress

/-! ## All rounds -/

namespace Precedence

/-- The vertices that were put among the ready ones at the start and in some number of advances,
each as often as it was. -/
def joined (p : Precedence n) : Nat → List (Fin n)
  | 0 => p.start.ready
  | count + 1 => p.joined count ++ (p.progress count).newcomers p.successors

variable {p : Precedence n} {s : Progress n} {i j : Fin n}

namespace Stage

/-- No vertex is listed twice, or ready twice, or both. -/
theorem nodup (h : p.Stage s) : (s.emitted ++ s.ready).Nodup := by
  refine List.nodup_append.2 ⟨h.greedy.nodup, h.ascending.imp fun hlt => hlt.ne, ?_⟩
  rintro i hi _ hj rfl
  exact ((h.mem_ready i).1 hj).1 hi

/-- A vertex that is released still waits, for the vertex at least that has been taken. -/
theorem pending_pos (h : p.Stage s) {rest front back : List (Fin n)} (hready : s.ready = i :: rest)
    (hround : p.successors.get i = front ++ j :: back) :
    0 < (front.foldl Progress.release (s.take i rest)).pending.get j := by
  have hbefore : p.Before i j := by
    rw [← mem_successors, hround]
    exact List.mem_append_right _ List.mem_cons_self
  have hunlisted : i ∉ s.emitted := (h.head_ready hready).1.1
  -- the releases before it in the round were of other vertices, so it waits as it did before
  have hnodup : (front ++ j :: back).Nodup := hround ▸ nodup_successors i
  have hfront : j ∉ front := fun hj => List.disjoint_of_nodup_append hnodup hj List.mem_cons_self
  rw [Progress.pending_foldl_release_of_notMem hfront, Nat.pos_iff_ne_zero]
  intro hzero
  exact hunlisted ((h.pending_eq_zero_iff j).1 hzero i hbefore)

end Stage

variable (p)

/-- The vertices that ever joined the ready ones are those that have been listed and those that are
ready. -/
theorem joined_perm (count : Nat) :
    (p.joined count).Perm ((p.progress count).emitted ++ (p.progress count).ready) := by
  induction count with
  | zero => exact .refl _
  | succ count ih =>
    rw [progress_succ]
    exact (ih.append_right _).trans ((p.progress count).advance_perm p.successors).symm

theorem progress_of_ready_nil {rounds count : Nat} (h : (p.progress rounds).ready = [])
    (hle : rounds ≤ count) : p.progress count = p.progress rounds := by
  induction count, hle using Nat.le_induction with
  | base => rfl
  | succ count _ ih => rw [progress_succ, ih, Progress.advance_of_ready_nil h]

/-- There is a last round, and at most as many rounds as vertices. -/
theorem exists_rounds :
    ∃ rounds ≤ n, (∀ count, (p.progress count).ready = [] ↔ rounds ≤ count) ∧
      ∀ count, rounds ≤ count → p.progress count = p.progress n := by
  have hends : ∃ count, (p.progress count).ready = [] := ⟨n, p.ready_progress_eq_nil⟩
  have hlast := Nat.find_spec hends
  have hle : Nat.find hends ≤ n := Nat.find_min' hends p.ready_progress_eq_nil
  refine ⟨Nat.find hends, hle, fun count => ⟨Nat.find_min' hends, fun hcount => ?_⟩,
    fun count hcount => ?_⟩
  · rw [p.progress_of_ready_nil hlast hcount, hlast]
  · rw [p.progress_of_ready_nil hlast hcount, p.progress_of_ready_nil hlast hle]

/-- What holds of the listing of the vertices. -/
structure SafeListing : Prop where
  /-- After each round a counter tells how many of the vertices before its own are not listed. -/
  counters : ∀ count i, (p.progress count).pending.get i =
    ((p.predecessors.get i).filter fun j => j ∉ (p.progress count).emitted).length
  /-- After each round those are ready that are not listed and come after listed ones only. -/
  ready : ∀ count i, i ∈ (p.progress count).ready ↔ p.IsReady (p.progress count).emitted i
  listedOnce : ∀ count, (p.progress count).emitted.Nodup
  joinedOnce : ∀ count, (p.joined count).Nodup
  accounted : ∀ count,
    (p.joined count).Perm ((p.progress count).emitted ++ (p.progress count).ready)
  /-- A round lists the least ready vertex and then releases its successors one by one. -/
  round : ∀ count i rest, (p.progress count).ready = i :: rest →
    p.progress (count + 1) =
      (p.successors.get i).foldl Progress.release ((p.progress count).take i rest)
  /-- Wherever a vertex is released within a round, its counter is not at zero. -/
  positive : ∀ count i rest, (p.progress count).ready = i :: rest →
    ∀ front j back, p.successors.get i = front ++ j :: back →
      0 < (front.foldl Progress.release ((p.progress count).take i rest)).pending.get j
  /-- From some round on, with one round for each vertex at the most, nothing is ready any more. -/
  ends : ∃ rounds ≤ n, (∀ count, (p.progress count).ready = [] ↔ rounds ≤ count) ∧
    ∀ count, rounds ≤ count → p.progress count = p.progress n
  /-- At the end those wait that are not listed. -/
  left : ∀ i, 0 < (p.progress n).pending.get i ↔ i ∉ (p.progress n).emitted

/-- The listing of the vertices is safe whatever they name, and it ends. -/
theorem listing_safe : p.SafeListing where
  counters count := (p.progress_stage count).pending
  ready count := (p.progress_stage count).mem_ready
  listedOnce count := (p.progress_stage count).greedy.nodup
  joinedOnce count := (p.joined_perm count).nodup_iff.2 (p.progress_stage count).nodup
  accounted := p.joined_perm
  round _ _ _ hready := Progress.advance_of_ready hready _
  positive count _ _ hready _ _ _ hround := (p.progress_stage count).pending_pos hready hround
  ends := p.exists_rounds
  left i := by
    rw [← p.mem_waiting_progress, Progress.waiting, List.mem_filter, decide_eq_true_iff]
    exact (and_iff_right (List.mem_finRange i)).symm

end Precedence

end Tableflow
