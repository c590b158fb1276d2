import Tableflow.Proofs.Blueprint.Build
import Tableflow.Proofs.Except

/-!
# The order of execution

The steps of a built pipeline stand in a topological order of the blueprint, and at each place
stands the step declared first among those that could stand there (`stepNames_at_split`). Such an
order is the least one: any other topological order has, at the first place where the two differ,
a step that is declared later (`lex_of_topological`).
-/

namespace Tableflow.Blueprint

variable {m : Type → Type}

/-! ## Topological orders -/

section Topological

variable (b : Blueprint m)

/-- The place of a step in the order of declaration. -/
def rank (name : String) : Nat := b.stepNames.idxOf name

/-- A step can be placed behind some others: it is not among them, and all that feed it are. -/
structure IsReady (placed : List String) (name : String) : Prop where
  declared : name ∈ b.stepNames
  new : name ∉ placed
  fed : ∀ source, b.Feeds source name → source ∈ placed

/-- All steps in an order in which the source of each edge stands before its target. -/
structure Topological (order : List String) : Prop where
  perm : order.Perm b.stepNames
  before : ∀ e ∈ b.edges, [e.source, e.target].Sublist order

end Topological

variable {b : Blueprint m}

/-- In a list without repetitions, what stands before an element stands in front of its place. -/
theorem mem_front_of_sublist {front back : List String} {x y : String}
    (hnodup : (front ++ y :: back).Nodup) (h : [x, y].Sublist (front ++ y :: back)) :
    x ∈ front := by
  obtain ⟨-, hback, hdisjoint⟩ := List.nodup_append.1 hnodup
  have hy : y ∉ back := (List.nodup_cons.1 hback).1
  obtain ⟨l, r, he, hl, hr⟩ := List.sublist_append_iff.1 h
  cases l with
  | nil =>
    -- both in the rest: then the second one stands behind its place
    obtain rfl : [x, y] = r := he
    exact absurd ((List.sublist_cons_iff.1 hr).elim (fun h => h.subset (by simp))
      fun ⟨_, hr', hsub⟩ => (List.cons.inj hr').2 ▸ hsub |>.subset (by simp)) hy
  | cons z l =>
    obtain ⟨rfl, -⟩ := List.cons.inj he
    exact hl.subset List.mem_cons_self

/-- In a topological order every step is ready at its place. -/
theorem Topological.isReady (hnames : b.stepNames.Nodup) {front back : List String} {name : String}
    (h : b.Topological (front ++ name :: back)) : b.IsReady front name := by
  have hnodup := h.perm.nodup_iff.2 hnames
  refine ⟨h.perm.subset (by simp), fun hmem => ?_, ?_⟩
  · exact (List.nodup_append.1 hnodup).2.2 _ hmem _ List.mem_cons_self rfl
  · rintro source ⟨e, he, rfl, rfl⟩
    exact mem_front_of_sublist hnodup (h.before e he)

theorem rank_injective {x y : String} (hx : x ∈ b.stepNames) (h : b.rank x = b.rank y) : x = y :=
  (List.idxOf_inj hx).1 h

/-- Behind a common part, an order that always takes the step declared first among the ready ones
is below any topological order. -/
theorem lex_of_topological (front : List String) {back other : List String}
    (hnames : b.stepNames.Nodup)
    (hperm : (front ++ back).Perm b.stepNames)
    (hleast : ∀ front' name back', front ++ back = front' ++ name :: back' →
      b.IsReady front' name ∧ ∀ x, b.IsReady front' x → b.rank name ≤ b.rank x)
    (hother : b.Topological (front ++ other)) :
    other = back ∨ List.Lex (· < ·) (back.map b.rank) (other.map b.rank) := by
  induction back generalizing front other with
  | nil =>
    have hlength := hother.perm.length_eq.trans hperm.length_eq.symm
    rw [List.length_append, List.length_append] at hlength
    exact .inl (List.length_eq_zero_iff.1 (Nat.add_left_cancel hlength))
  | cons name back ih =>
    cases other with
    | nil =>
      have hlength := hother.perm.length_eq.trans hperm.length_eq.symm
      simp at hlength
    | cons name' other =>
      obtain ⟨hready, hle⟩ := hleast front name back rfl
      rcases Nat.lt_or_eq_of_le (hle name' (hother.isReady hnames)) with hlt | heq
      · exact .inr (.rel hlt)
      · obtain rfl := rank_injective hready.declared heq
        have hassoc : ∀ rest, front ++ name :: rest = (front ++ [name]) ++ rest := by simp
        rw [hassoc] at hperm hother
        rw [hassoc] at hleast
        rcases ih (front ++ [name]) hperm hleast hother with rfl | hlex
        · exact .inl rfl
        · exact .inr (.cons hlex)

/-! ## The steps of a built pipeline -/

/-- A built pipeline comes from a valid blueprint, whose steps it holds. -/
theorem of_build_eq_ok {p : Pipeline m} (h : b.build = .ok p) : b.Valid ∧ b.Arranged p := by
  obtain ⟨hpass, harranged⟩ := b.decides_build.of_ok h
  exact ⟨pass_checks_iff.1 hpass, harranged⟩

/-- A valid blueprint is built. -/
theorem exists_build_of_valid (h : b.Valid) : ∃ p, b.build = .ok p ∧ b.Arranged p := by
  obtain ⟨p, hbuild⟩ := b.decides_build.exists_ok_iff.2 (pass_checks_iff.2 h)
  exact ⟨p, hbuild, (of_build_eq_ok hbuild).2⟩

/-- What can be computed of the pipeline of a blueprint tells that there is one. -/
theorem exists_build_eq_ok {α : Type} {f : Pipeline m → α} {a : α}
    (h : b.build.toOption.map f = some a) : ∃ p, b.build = .ok p ∧ f p = a :=
  exists_of_toOption_map h

theorem rank_nameAt (hnames : b.stepNames.Nodup) (i : Fin b.boundSteps.length) :
    b.rank (b.nameAt i) = i := by
  have hlength : (i : Nat) < b.stepNames.length := by
    rw [← map_nameAt_finRange, List.length_map, List.length_finRange]
    exact i.isLt
  have hget : b.nameAt i = b.stepNames[(i : Nat)] := by
    simp only [← map_nameAt_finRange, List.getElem_map, List.getElem_finRange]
    rfl
  rw [rank, hget, hnames.idxOf_getElem]

theorem isReady_nameAt_iff (h : b.Wired) {placed : List (Fin b.boundSteps.length)}
    {i : Fin b.boundSteps.length} :
    b.IsReady (placed.map b.nameAt) (b.nameAt i) ↔
      (precedence b.boundSteps).IsReady placed i := by
  have hinjective := nameAt_injective h.names_nodup
  constructor
  · intro hready
    refine ⟨fun hi => hready.new (List.mem_map_of_mem hi), fun j hj => ?_⟩
    exact (List.mem_map_of_injective hinjective).1 (hready.fed _ ((before_iff h).1 hj))
  · rintro ⟨hnew, hfed⟩
    refine ⟨mem_stepNames_iff.2 ⟨i, rfl⟩,
      fun hi => hnew ((List.mem_map_of_injective hinjective).1 hi), fun source hsource => ?_⟩
    obtain ⟨e, he, rfl, -⟩ := id hsource
    obtain ⟨j, hj⟩ := mem_stepNames_iff.1 (h.edge_declared e he).1
    rw [← hj]
    exact List.mem_map_of_mem (hfed j ((before_iff h).2 (hj ▸ hsource)))

namespace Arranged

variable {p : Pipeline m}

theorem stepNames_perm (h : b.Arranged p) : p.stepNames.Perm b.stepNames := by
  obtain ⟨order, -, hperm, rfl⟩ := h
  rw [Pipeline.stepNames, List.map_map, ← map_nameAt_finRange]
  exact hperm.map b.nameAt

theorem nodup_stepNames (h : b.Arranged p) (hwired : b.Wired) : p.stepNames.Nodup :=
  h.stepNames_perm.nodup_iff.2 hwired.names_nodup

/-- At each place stands the step declared first among those that could stand there. -/
theorem stepNames_at_split (h : b.Arranged p) (hwired : b.Wired) {front back : List String}
    {name : String} (he : p.stepNames = front ++ name :: back) :
    b.IsReady front name ∧ ∀ x, b.IsReady front x → b.rank name ≤ b.rank x := by
  obtain ⟨order, hgreedy, -, rfl⟩ := h
  rw [Pipeline.stepNames, List.map_map] at he
  obtain ⟨placed, rest, rfl, rfl, hrest⟩ := List.map_eq_append_iff.1 he
  obtain ⟨i, rest, rfl, rfl, rfl⟩ := List.map_eq_cons_iff.1 hrest
  obtain ⟨hready, hleast⟩ := hgreedy.at_split rfl
  refine ⟨(isReady_nameAt_iff hwired).2 hready, fun x hx => ?_⟩
  obtain ⟨j, rfl⟩ := mem_stepNames_iff.1 hx.declared
  change b.rank (b.nameAt i) ≤ b.rank (b.nameAt j)
  rw [rank_nameAt hwired.names_nodup, rank_nameAt hwired.names_nodup]
  exact hleast j ((isReady_nameAt_iff hwired).1 hx)

theorem topological (h : b.Arranged p) (hwired : b.Wired) : b.Topological p.stepNames := by
  refine ⟨h.stepNames_perm, fun e he => ?_⟩
  have htarget := h.stepNames_perm.mem_iff.2 (hwired.edge_declared e he).2
  obtain ⟨front, back, hsplit⟩ := List.append_of_mem htarget
  have hsource := (h.stepNames_at_split hwired hsplit).1.fed e.source ⟨e, he, rfl, rfl⟩
  rw [hsplit, ← List.singleton_append]
  exact (List.singleton_sublist.2 hsource).append (List.singleton_sublist.2 List.mem_cons_self)

/-- A step of the pipeline is one of the blueprint with its bindings. -/
theorem exists_place_of_mem (h : b.Arranged p) {s : BoundStep m} (hs : s ∈ p.steps) :
    ∃ t ∈ b.steps, s = place b.allBindings t := by
  obtain ⟨order, -, -, rfl⟩ := h
  obtain ⟨i, -, rfl⟩ := List.mem_map.1 hs
  exact exists_place_eq i

theorem predecessorsOf_eq_ok (h : b.Arranged p) (hwired : b.Wired) {name : String}
    (hname : name ∈ p.stepNames) :
    ∃ names, p.predecessorsOf name = .ok names ∧ names.Pairwise (· < ·) ∧
      ∀ source, source ∈ names ↔ b.Feeds source name := by
  obtain ⟨s, hs, rfl⟩ := List.mem_map.1 hname
  have hstep := (Pipeline.step?_eq_some_iff (h.nodup_stepNames hwired)).2 ⟨hs, rfl⟩
  obtain ⟨t, -, rfl⟩ := h.exists_place_of_mem hs
  refine ⟨(place b.allBindings t).predecessors, by rw [Pipeline.predecessorsOf, hstep],
    Dictionary.keys_pairwise _, fun source => ?_⟩
  exact mem_predecessors_iff hwired.ports_nodup

end Arranged

/-- The steps of a built pipeline stand in the least topological order by declaration: at each place
stands the step declared first among those that are ready there. The predecessors of a step are the
sources of the edges that lead to it, each once and in order. -/
theorem build_execution_order {b : Blueprint m} {p : Pipeline m} (h : b.build = .ok p) :
    b.Topological p.stepNames ∧
      (∀ front name back, p.stepNames = front ++ name :: back →
        b.IsReady front name ∧ ∀ x, b.IsReady front x → b.rank name ≤ b.rank x) ∧
      (∀ order, b.Topological order → order = p.stepNames ∨
        List.Lex (· < ·) (p.stepNames.map b.rank) (order.map b.rank)) ∧
      ∀ name ∈ p.stepNames, ∃ names, p.predecessorsOf name = .ok names ∧
        names.Pairwise (· < ·) ∧ ∀ source, source ∈ names ↔ b.Feeds source name := by
  obtain ⟨⟨hwired, -⟩, harranged⟩ := of_build_eq_ok h
  refine ⟨harranged.topological hwired, ?_, ?_, ?_⟩
  · exact fun front name back he => harranged.stepNames_at_split hwired he
  · intro order horder
    exact lex_of_topological [] hwired.names_nodup harranged.stepNames_perm
      (fun front name back he => harranged.stepNames_at_split hwired he) horder
  · exact fun name hname => harranged.predecessorsOf_eq_ok hwired hname

/-- A step declared before the ones that feed it, by two edges from the first of them. -/
def lateSource : Blueprint Id where
  name := "late"
  steps := [relay "join" ["x", "y", "z"], relay "source" [], relay "other" []]
  edges := [⟨"source", "out", "join", "x"⟩, ⟨"other", "out", "join", "y"⟩,
    ⟨"source", "out", "join", "z"⟩]
  constants := []

theorem lateSource_order :
    ∃ p, lateSource.build = .ok p ∧ p.stepNames = ["source", "other", "join"] ∧
      (∀ order, lateSource.Topological order → order = ["source", "other", "join"] ∨
        List.Lex (· < ·) [1, 2, 0] (order.map lateSource.rank)) ∧
      ∃ names, p.predecessorsOf "join" = .ok names ∧ names.Pairwise (· < ·) ∧
        ∀ source, source ∈ names ↔ lateSource.Feeds source "join" := by
  have horder : lateSource.build.toOption.map Pipeline.stepNames =
      some ["source", "other", "join"] := by
    cbv
  obtain ⟨p, hbuild, hnames⟩ := exists_build_eq_ok horder
  obtain ⟨-, -, hleast, hpredecessors⟩ := build_execution_order hbuild
  refine ⟨p, hbuild, hnames, ?_, hpredecessors "join" (by simp [hnames])⟩
  rw [hnames] at hleast
  exact hleast

end Tableflow.Blueprint
