import Mathlib.Data.List.Basic
import Tableflow.Facets.Statistics

/-!
# Numeric statistics

What the statistics of a numeric column say of its numbers: how many there are, how many of them are
zeros, and which of them are the first and the last in the total order
(`NumericStatistics.extreme_min`, `NumericStatistics.extreme_max`). All of this is put together from
the statistics of two columns, if their cells together are those of the whole
(`NumericStatistics.joined_of_perm`).
-/

namespace Tableflow

/-! ## Extremes -/

section

variable {α : Type u} {le : α → α → Bool} {xs ys : List α}

/-- The item of a list that stands in an order to every item, or none where there are no items. -/
inductive Extreme (le : α → α → Bool) : List α → Option α → Prop
  | absent : Extreme le [] none
  | reached {xs : List α} {x : α} :
    x ∈ xs → (∀ y ∈ xs, le x y = true) → Extreme le xs (some x)

namespace Extreme

variable {a b : Option α}

theorem perm (h : Extreme le xs a) (hperm : xs.Perm ys) : Extreme le ys a := by
  cases h with
  | absent =>
    rw [hperm.symm.eq_nil]
    exact .absent
  | reached hx hle => exact .reached (hperm.mem_iff.1 hx) fun y hy => hle y (hperm.mem_iff.2 hy)

theorem some_iff {x : α} : Extreme le xs (some x) ↔ x ∈ xs ∧ ∀ y ∈ xs, le x y = true := by
  constructor
  · intro h
    cases h with
    | reached hmem hle => exact ⟨hmem, hle⟩
  · rintro ⟨hmem, hle⟩
    exact .reached hmem hle

theorem exists_le {y : α} (h : Extreme le xs a) (hy : y ∈ xs) : ∃ x, a = some x ∧ le x y = true := by
  cases h with
  | absent => exact nomatch hy
  | reached _ hle => exact ⟨_, rfl, hle y hy⟩

theorem unique (hantisymm : ∀ x y, le x y = true → le y x = true → x = y)
    (ha : Extreme le xs a) (hb : Extreme le xs b) : a = b := by
  cases ha with
  | absent =>
    cases hb with
    | absent => rfl
    | reached hy => exact nomatch hy
  | reached hx hxle =>
    cases hb with
    | absent => exact nomatch hx
    | reached hy hyle => exact congrArg some (hantisymm _ _ (hxle _ hy) (hyle _ hx))

/-- The extreme of two lists together is one of theirs. -/
theorem append {first : α → α → α} (ha : Extreme le xs a) (hb : Extreme le ys b)
    (hfirst : ∀ x y, first x y = if le x y then x else y)
    (htrans : ∀ x y z, le x y = true → le y z = true → le x z = true)
    (htotal : ∀ x y, le x y = true ∨ le y x = true) :
    Extreme le (xs ++ ys) (Option.merge first a b) := by
  cases ha with
  | absent =>
    rw [Option.merge_none_left]
    exact hb
  | @reached _ x hx hxle =>
    cases hb with
    | absent =>
      rw [List.append_nil]
      exact .reached hx hxle
    | @reached _ y hy hyle =>
      rw [Option.merge, hfirst]
      split
      · next hle =>
        refine .reached (List.mem_append_left _ hx) (List.forall_mem_append.2 ⟨hxle, ?_⟩)
        exact fun z hz => htrans x y z hle (hyle z hz)
      · next hle =>
        have hle : le y x = true := (htotal x y).resolve_left hle
        refine .reached (List.mem_append_right _ hy) (List.forall_mem_append.2 ⟨?_, hyle⟩)
        exact fun z hz => htrans y x z hle (hxle z hz)

theorem of_head? (htotal : ∀ x y, le x y = true ∨ le y x = true)
    (h : xs.Pairwise fun x y => le x y = true) : Extreme le xs xs.head? := by
  cases xs with
  | nil => exact .absent
  | cons x rest =>
    refine .reached List.mem_cons_self (List.forall_mem_cons.2 ⟨?_, (List.pairwise_cons.1 h).1⟩)
    exact (htotal x x).elim id id

end Extreme

end

namespace Double

/-- Whether `x` stands at or behind `y` in the total order. -/
def totalGE (x y : Double) : Bool := y.totalLE x

/-- The one of two numbers that comes first in the total order. -/
def lesser (x y : Double) : Double := if x.totalLE y then x else y

/-- The one of two numbers that comes last in the total order. -/
def greater (x y : Double) : Double := if x.totalGE y then x else y

theorem lesser_eq (x y : Double) : lesser x y = if x.totalLE y then x else y := rfl

theorem greater_eq (x y : Double) : greater x y = if x.totalGE y then x else y := rfl

theorem totalGE_trans {x y z : Double} (hxy : x.totalGE y = true) (hyz : y.totalGE z = true) :
    x.totalGE z = true :=
  totalLE_trans hyz hxy

theorem totalLE_or (x y : Double) : x.totalLE y = true ∨ y.totalLE x = true := by
  simpa using totalLE_total x y

theorem totalGE_or (x y : Double) : x.totalGE y = true ∨ y.totalGE x = true := totalLE_or y x

theorem extreme_lesser {xs ys : List Double} {a b : Option Double} (ha : Extreme totalLE xs a)
    (hb : Extreme totalLE ys b) : Extreme totalLE (xs ++ ys) (Option.merge lesser a b) :=
  ha.append hb lesser_eq (fun _ _ _ => totalLE_trans) totalLE_or

theorem extreme_greater {xs ys : List Double} {a b : Option Double} (ha : Extreme totalGE xs a)
    (hb : Extreme totalGE ys b) : Extreme totalGE (xs ++ ys) (Option.merge greater a b) :=
  ha.append hb greater_eq (fun _ _ _ => totalGE_trans) totalGE_or

end Double

/-! ## The statistics of some numbers -/

namespace NumericStatistics

variable {values xs ys : List (Option Double)}

theorem count_eq (values : List (Option Double)) :
    (of values).count = (values.filterMap id).length :=
  (present_perm_filterMap values).length_eq

theorem count_add_missing (values : List (Option Double)) :
    (of values).count + (of values).missing = values.length := by
  have hle : (present values).length ≤ values.length :=
    le_of_eq_of_le (present_perm_filterMap values).length_eq (List.length_filterMap_le ..)
  exact Nat.add_sub_cancel' hle

theorem zeros_eq (values : List (Option Double)) :
    (of values).zeros = (values.filterMap id).countP Double.isZero :=
  (present_perm_filterMap values).countP_eq _

theorem min_eq_head? (values : List (Option Double)) :
    (of values).min = (present values).head? := by
  simp only [of]
  cases present values <;> rfl

theorem max_eq_getLast? (values : List (Option Double)) :
    (of values).max = (present values).getLast? := by
  simp only [of]
  cases present values with
  | nil => rfl
  | cons first rest => exact List.getLast?_cons.symm

theorem extreme_min (values : List (Option Double)) :
    Extreme Double.totalLE (values.filterMap id) (of values).min := by
  rw [min_eq_head?]
  exact (Extreme.of_head? Double.totalLE_or (present_pairwise values)).perm
    (present_perm_filterMap values)

theorem extreme_max (values : List (Option Double)) :
    Extreme Double.totalGE (values.filterMap id) (of values).max := by
  have hreverse : (present values).reverse.Pairwise fun x y => x.totalGE y = true :=
    List.pairwise_reverse.2 (present_pairwise values)
  rw [max_eq_getLast?, ← List.head?_reverse]
  exact (Extreme.of_head? Double.totalGE_or hreverse).perm
    ((List.reverse_perm _).trans (present_perm_filterMap values))

/-! ## Two parts of some numbers -/

/-- The statistics of some numbers are put together from those of two parts of their cells. -/
structure Joined (a b whole : NumericStatistics) : Prop where
  count : whole.count = a.count + b.count
  missing : whole.missing = a.missing + b.missing
  zeros : whole.zeros = a.zeros + b.zeros
  min : whole.min = Option.merge Double.lesser a.min b.min
  max : whole.max = Option.merge Double.greater a.max b.max

theorem joined_of_perm (h : (xs ++ ys).Perm values) : Joined (of xs) (of ys) (of values) := by
  have hpresent := h.filterMap id
  rw [List.filterMap_append] at hpresent
  have hcount : (of values).count = (of xs).count + (of ys).count := by
    rw [count_eq, count_eq, count_eq, ← List.length_append, hpresent.length_eq]
  have hlength := h.length_eq
  rw [List.length_append] at hlength
  refine ⟨hcount, ?_, ?_, ?_, ?_⟩
  · have hxs := count_add_missing xs
    have hys := count_add_missing ys
    have hvalues := count_add_missing values
    omega
  · rw [zeros_eq, zeros_eq, zeros_eq, ← List.countP_append, hpresent.countP_eq]
  · have hmin := (Double.extreme_lesser (extreme_min xs) (extreme_min ys)).perm hpresent
    exact (extreme_min values).unique (fun _ _ => Double.totalLE_antisymm) hmin
  · have hmax := (Double.extreme_greater (extreme_max xs) (extreme_max ys)).perm hpresent
    exact (extreme_max values).unique (fun _ _ h h' => Double.totalLE_antisymm h' h) hmax

end NumericStatistics

end Tableflow
