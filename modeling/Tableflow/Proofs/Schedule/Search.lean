import Mathlib.Algebra.Order.BigOperators.Group.List
import Mathlib.Algebra.Order.Ring.Nat
import Tableflow.Proofs.Schedule.Cycle

/-!
# The search for a path

`Precedence.reaches` decides whether a path of one or more edges leads from a vertex to another one
with all vertices in between among some (`Precedence.PathWithin`), whatever the edges are: lists of
successors may repeat a vertex, name the vertex itself or close a cycle.

The search can also be carried out turn by turn, with the vertices that were visited put down and
the stack left to hold a vertex more than once (`Precedence.searchFor`). Each turn brings down the
`Precedence.load` of the search by at least one, so it comes to an answer before the load has run
out, and to the one of `Precedence.reaches` (`Precedence.searchFor_eq_search`).
-/

namespace Tableflow

open Relation

variable {n : Nat}

namespace Precedence

/-! ## Paths -/

/-- A path of one or more edges leads from a vertex to another one, with all vertices in between
among some. -/
def PathWithin (next : Vector (List (Fin n)) n) (within : List (Fin n)) (source target : Fin n) :
    Prop :=
  ∃ between : List (Fin n), (∀ v ∈ between, v ∈ within) ∧
    (source :: (between ++ [target])).IsChain fun i j => j ∈ next.get i

variable {next : Vector (List (Fin n)) n} {within : List (Fin n)} {source target : Fin n}

theorem pathWithin_iff_exists_walk :
    PathWithin next within source target ↔
      ∃ v ∈ next.get source, ReflTransGen (Through next within) v target := by
  constructor
  · rintro ⟨between, hwithin, hchain⟩
    induction between generalizing source with
    | nil => exact ⟨target, (List.isChain_cons_cons.1 hchain).1, .refl⟩
    | cons v between ih =>
      obtain ⟨hv, hbetween⟩ := List.forall_mem_cons.1 hwithin
      obtain ⟨hedge, hchain⟩ := List.isChain_cons_cons.1 hchain
      obtain ⟨w, hw, hwalk⟩ := ih hbetween hchain
      exact ⟨v, hedge, .head ⟨hv, hw⟩ hwalk⟩
  · rintro ⟨v, hv, hwalk⟩
    induction hwalk using ReflTransGen.head_induction_on generalizing source with
    | refl => exact ⟨[], by simp, by simpa using hv⟩
    | @head v w hvw _ ih =>
      obtain ⟨between, hwithin, hchain⟩ := ih hvw.2
      exact ⟨v :: between, List.forall_mem_cons.2 ⟨hvw.1, hwithin⟩, .cons_cons hv hchain⟩

theorem reaches_eq_true_iff :
    reaches next within source target = true ↔ PathWithin next within source target := by
  rw [reaches, search_eq_true_iff, pathWithin_iff_exists_walk]

/-- Searches whose stacks both lead to the target, or both do not, have the same answer. -/
theorem search_congr {unvisited unvisited' stack stack' : List (Fin n)}
    (h : (∃ v ∈ stack, ReflTransGen (Through next unvisited) v target) ↔
      ∃ v ∈ stack', ReflTransGen (Through next unvisited') v target) :
    search next target unvisited stack = search next target unvisited' stack' := by
  rw [Bool.eq_iff_iff, search_eq_true_iff, search_eq_true_iff]
  exact h

/-! ## Turns of the search -/

/-- The answer that a search comes to within some number of turns, if it does. In each turn the
uppermost vertex is taken off the stack. If it is one of those `within` and none of those `seen`,
then it is seen from now on and its successors are put on the stack, the last one uppermost. -/
def searchFor (next : Vector (List (Fin n)) n) (within : List (Fin n)) (target : Fin n) :
    Nat → List (Fin n) → List (Fin n) → Option Bool
  | 0, _, _ => none
  | _ + 1, _, [] => some false
  | turns + 1, seen, i :: stack =>
    if i = target then some true
    else if within.contains i && !seen.contains i then
      searchFor next within target turns (i :: seen) ((next.get i).reverse ++ stack)
    else searchFor next within target turns seen stack

/-- The vertices that a search can still put down as seen. -/
def unseen (within seen : List (Fin n)) : List (Fin n) := within.filter fun v => !seen.contains v

/-- How many vertices are on the stack of a search or can still come there. -/
def load (next : Vector (List (Fin n)) n) (within seen stack : List (Fin n)) : Nat :=
  stack.length + ((unseen within seen).map fun v => (next.get v).length).sum

variable {seen stack : List (Fin n)} {i : Fin n}

theorem mem_unseen {v : Fin n} : v ∈ unseen within seen ↔ v ∈ within ∧ v ∉ seen := by
  simp [unseen]

theorem contains_and_not_contains_iff :
    (within.contains i && !seen.contains i) = true ↔ i ∈ unseen within seen := by
  simp [mem_unseen]

theorem mem_unseen_cons_of_ne {v : Fin n} (hv : v ∈ unseen within seen) (hvi : v ≠ i) :
    v ∈ unseen within (i :: seen) := by
  rw [mem_unseen] at hv ⊢
  exact ⟨hv.1, List.not_mem_cons_of_ne_of_not_mem hvi hv.2⟩

theorem unseen_cons_sublist (within seen : List (Fin n)) (i : Fin n) :
    (unseen within (i :: seen)).Sublist ((unseen within seen).erase i) := by
  have hsublist : (unseen within (i :: seen)).Sublist (unseen within seen) :=
    List.monotone_filter_right _ fun v => by simp
  have hgone : i ∉ unseen within (i :: seen) := by simp [mem_unseen]
  rw [← List.erase_of_not_mem hgone]
  exact hsublist.erase i

theorem unseen_cons_subset (within seen : List (Fin n)) (i : Fin n) :
    unseen within (i :: seen) ⊆ unseen within seen :=
  ((unseen_cons_sublist within seen i).trans List.erase_sublist).subset

/-- A vertex that is expanded brings its successors onto the stack, and can never do so again. -/
theorem load_expand_lt (next : Vector (List (Fin n)) n) (hi : i ∈ unseen within seen)
    (stack : List (Fin n)) :
    load next within (i :: seen) ((next.get i).reverse ++ stack) <
      load next within seen (i :: stack) := by
  have hsum : ((unseen within (i :: seen)).map fun v => (next.get v).length).sum ≤
      (((unseen within seen).erase i).map fun v => (next.get v).length).sum :=
    ((unseen_cons_sublist within seen i).map _).sum_le_sum fun _ _ => Nat.zero_le _
  rw [load, load, ← List.sum_map_erase _ hi, List.length_append, List.length_reverse,
    List.length_cons]
  omega

theorem load_skip_lt (next : Vector (List (Fin n)) n) (within seen stack : List (Fin n))
    (i : Fin n) : load next within seen stack < load next within seen (i :: stack) := by
  rw [load, load, List.length_cons]
  omega

/-- A search that may take more turns than its load comes to an answer, which is the one of the
search among the unseen vertices. -/
theorem searchFor_eq_search {turns : Nat} (h : load next within seen stack < turns) :
    searchFor next within target turns seen stack =
      some (search next target (unseen within seen) stack) := by
  induction turns generalizing seen stack with
  | zero => exact absurd h (Nat.not_lt_zero _)
  | succ turns ih =>
    cases stack with
    | nil => rw [searchFor, search]
    | cons i stack =>
      rw [searchFor]
      split
      · next hi => rw [search, if_pos hi]
      · next hne =>
        -- the search goes on with a smaller load, and its stack leads to the target as before
        split
        · next hi =>
          have hunseen := contains_and_not_contains_iff.1 hi
          have hload := load_expand_lt next hunseen stack
          rw [ih (by omega)]
          refine congrArg some (search_congr ?_)
          exact exists_walk_expand hne hunseen (unseen_cons_subset within seen i)
            (fun v hv hvi => mem_unseen_cons_of_ne hv hvi) (fun v => List.mem_reverse) stack
        · next hi =>
          have hload := load_skip_lt next within seen stack i
          rw [ih (by omega)]
          refine congrArg some (search_congr ?_)
          exact exists_walk_skip hne (mt contains_and_not_contains_iff.2 hi) stack

/-- The search for a path finds one exactly if there is one. Taken turn by turn it ends, at the
latest after as many turns as there are edges out of the source and out of the vertices allowed in
between, and one more, with the same answer. -/
theorem reaches_exact (next : Vector (List (Fin n)) n) (within : List (Fin n))
    (source target : Fin n) :
    (reaches next within source target = true ↔ PathWithin next within source target) ∧
      ∀ turns, (next.get source).length + (within.map fun v => (next.get v).length).sum < turns →
        searchFor next within target turns [] (next.get source).reverse =
          some (reaches next within source target) := by
  refine ⟨reaches_eq_true_iff, fun turns hturns => ?_⟩
  have hunseen : unseen within [] = within := by simp [unseen]
  have hload : load next within [] (next.get source).reverse < turns := by
    rwa [load, hunseen, List.length_reverse]
  rw [searchFor_eq_search hload, hunseen, reaches]
  refine congrArg some (search_congr ?_)
  simp only [List.mem_reverse]

/-- A graph with an edge that is there twice, edges from vertices to themselves and a cycle through
three of them. -/
def tangle : Vector (List (Fin 4)) 4 := #v[[1, 1, 0], [2, 1], [0, 3], [3]]

/-- The last vertex of the tangle is reached from the first one by way of the two others, and not
by way of the first of them alone. -/
theorem tangle_reaches :
    (tangle.get 0).length + (([1, 2] : List (Fin 4)).map fun v => (tangle.get v).length).sum < 8 ∧
      searchFor tangle [1, 2] 3 8 [] (tangle.get 0).reverse = some true ∧
      PathWithin tangle [1, 2] 0 3 ∧ ¬ PathWithin tangle [1] 0 3 := by
  have hload : (tangle.get 0).length +
      (([1, 2] : List (Fin 4)).map fun v => (tangle.get v).length).sum < 8 := by decide
  have hfound : searchFor tangle [1, 2] 3 8 [] (tangle.get 0).reverse = some true := by decide
  have hlost : searchFor tangle [1] 3 6 [] (tangle.get 0).reverse = some false := by decide
  obtain ⟨hexact, hends⟩ := reaches_exact tangle [1, 2] 0 3
  obtain ⟨hexact', hends'⟩ := reaches_exact tangle [1] 0 3
  rw [hends 8 hload, Option.some_inj] at hfound
  rw [hends' 6 (by decide), Option.some_inj] at hlost
  refine ⟨hload, (hends 8 hload).trans (congrArg some hfound), hexact.1 hfound, ?_⟩
  rw [← hexact', hlost]
  exact Bool.false_ne_true

end Precedence

end Tableflow
