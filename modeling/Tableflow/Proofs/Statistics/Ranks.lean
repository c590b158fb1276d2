import Tableflow.Proofs.Statistics.Numeric

/-!
# Order statistics

An item of a list has a rank in the total order, where equal items are counted one by one
(`Double.Ranked`): in an ascending list it is the place of the item (`Double.ranked_getElem?`). The
median of an odd number of present values is the one of the middle rank, and that of an even number
is half the sum of the two in the middle.

The median looks its items up by place. `checkedMedian` is the same calculation with no value where
a place is beyond the list or below zero, and it has one for every list that is not empty
(`NumericStatistics.checkedMedian_present`). The main statement is
`NumericStatistics.describes_numbers`.
-/

namespace Tableflow

/-! ## Ranks -/

namespace Double

/-- Whether `x` stands strictly before `y` in the total order. -/
def totalLT (x y : Double) : Bool := !y.totalLE x

/-- `x` is the item of rank `k` in the total order. Ranks count from one, and equal items have ranks
one after the other. -/
structure Ranked (xs : List Double) (k : Nat) (x : Double) : Prop where
  mem : x ∈ xs
  before : xs.countP (·.totalLT x) < k
  upTo : k ≤ xs.countP (·.totalLE x)

variable {xs ys front back : List Double} {k i : Nat} {x : Double}

theorem isZero_iff : x.isZero = true ↔ x = zero ∨ x = negZero := by
  obtain ⟨bits⟩ := x
  have hlt := bits.toNat_lt
  rw [isZero, decide_eq_true_eq]
  simp only [magnitude, zero, negZero, Double.mk.injEq, ← UInt64.toNat_inj]
  change bits.toNat % 0x8000000000000000 = 0 ↔ bits.toNat = 0 ∨ bits.toNat = 0x8000000000000000
  omega

theorem totalLE_refl (x : Double) : x.totalLE x = true := (totalLE_or x x).elim id id

theorem Ranked.perm (h : Ranked xs k x) (hperm : xs.Perm ys) : Ranked ys k x := by
  obtain ⟨hmem, hbefore, hupTo⟩ := h
  rw [hperm.countP_eq] at hbefore hupTo
  exact ⟨hperm.mem_iff.1 hmem, hbefore, hupTo⟩

theorem ranked_of_pairwise (h : (front ++ x :: back).Pairwise (totalLE · ·)) :
    Ranked (front ++ x :: back) (front.length + 1) x := by
  obtain ⟨-, hback, hfront⟩ := List.pairwise_append.1 h
  refine ⟨by simp, ?_, ?_⟩
  · -- only the items in front of it can stand before it
    have hnone : (x :: back).countP (·.totalLT x) = 0 := by
      rw [List.countP_eq_zero]
      intro y hy
      rcases List.mem_cons.1 hy with rfl | hy
      · simp [totalLT, totalLE_refl]
      · simp [totalLT, (List.pairwise_cons.1 hback).1 y hy]
    rw [List.countP_append, hnone]
    exact Nat.lt_succ_of_le List.countP_le_length
  · have hall : front.countP (·.totalLE x) = front.length :=
      List.countP_eq_length.2 fun y hy => hfront y hy x List.mem_cons_self
    have hself : 1 ≤ (x :: back).countP (·.totalLE x) :=
      List.countP_pos_iff.2 ⟨x, List.mem_cons_self, totalLE_refl x⟩
    rw [List.countP_append, hall]
    exact Nat.add_le_add_left hself _

/-- Of an ascending list the item behind `i` others has rank `i + 1`. -/
theorem ranked_getElem? (h : xs.Pairwise (totalLE · ·)) (hx : xs[i]? = some x) :
    Ranked xs (i + 1) x := by
  obtain ⟨hi, rfl⟩ := List.getElem?_eq_some_iff.1 hx
  have hsplit : xs.take i ++ xs[i] :: xs.drop (i + 1) = xs := by
    rw [List.getElem_cons_drop, List.take_append_drop]
  have hranked := ranked_of_pairwise (hsplit.symm ▸ h)
  rwa [hsplit, List.length_take_of_le (Nat.le_of_lt hi)] at hranked

/-- How many items stand behind an item of a rank. -/
theorem Ranked.countP_after_le (h : Ranked xs k x) :
    xs.countP (fun y => x.totalLT y) ≤ xs.length - k := by
  have hlength := List.length_eq_countP_add_countP (·.totalLE x) (l := xs)
  have hafter : (xs.countP fun y => decide ¬(y.totalLE x = true)) =
      xs.countP fun y => x.totalLT y := by
    simp [totalLT]
  have hupTo := h.upTo
  omega

end Double

/-! ## The median -/

/-- The difference of two numbers, if it is not below zero. -/
def difference? (a b : Nat) : Option Nat := if b ≤ a then some (a - b) else none

theorem difference?_add (a b : Nat) : difference? (a + b) a = some b := by
  rw [difference?, if_pos (Nat.le_add_right a b), Nat.add_sub_cancel_left]

/-- The median of an ascending list, if all places at which it looks are places of the list. -/
def checkedMedian (sorted : List Double) : Option Double :=
  let half := sorted.length / 2
  if sorted.length % 2 = 1 then sorted[half]?
  else do
    let before ← difference? half 1
    return ((← sorted[before]?) + (← sorted[half]?)) / Double.two

theorem checkedMedian_cons (first : Double) (rest : List Double) :
    checkedMedian (first :: rest) = some (medianOf first rest) := by
  have hhalf : rest.length.succ / 2 < (first :: rest).length := Nat.div_lt_self (by simp) (by simp)
  simp only [checkedMedian, medianOf, List.length_cons, List.size_toArray, List.getElem?_toArray]
  split
  · rw [List.getElem?_eq_getElem hhalf, Option.getD_some]
  · next heven =>
    -- an even number of items, of which there is a first one, is at least two
    have hpos : 1 ≤ rest.length.succ / 2 := by omega
    have hbefore : rest.length.succ / 2 - 1 < (first :: rest).length := by omega
    rw [difference?, if_pos hpos]
    simp only [Option.bind_eq_bind, Option.bind_some, List.getElem?_eq_getElem hhalf,
      List.getElem?_eq_getElem hbefore, Option.getD_some]
    rfl

namespace NumericStatistics

variable (values : List (Option Double))

theorem checkedMedian_present : checkedMedian (present values) = (of values).median := by
  simp only [of]
  cases present values with
  | nil => rfl
  | cons first rest => exact checkedMedian_cons first rest

theorem ranked_present {values : List (Option Double)} {i : Nat} {x : Double}
    (hx : (present values)[i]? = some x) : Double.Ranked (values.filterMap id) (i + 1) x :=
  (Double.ranked_getElem? (present_pairwise values) hx).perm (present_perm_filterMap values)

/-- The median of an odd number of present values is the one of the middle rank. -/
theorem median_of_odd (h : (of values).count % 2 = 1) :
    ∃ m, (of values).median = some m ∧
      Double.Ranked (values.filterMap id) ((of values).count / 2 + 1) m := by
  have hcount : (present values).length = (of values).count := rfl
  have hhalf : (of values).count / 2 < (present values).length := by omega
  refine ⟨_, ?_, ranked_present (List.getElem?_eq_getElem hhalf)⟩
  rw [← checkedMedian_present]
  simp only [checkedMedian, hcount, if_pos h, List.getElem?_eq_getElem hhalf]

/-- At most half of the others stand on either side of the median of an odd number of values. -/
theorem countP_median_of_odd (h : (of values).count % 2 = 1) :
    ∃ m ∈ values.filterMap id, (of values).median = some m ∧
      (values.filterMap id).countP (fun y => y.totalLT m) ≤ ((of values).count - 1) / 2 ∧
      (values.filterMap id).countP (fun y => m.totalLT y) ≤ ((of values).count - 1) / 2 := by
  obtain ⟨m, hm, hranked⟩ := median_of_odd values h
  have hbefore := hranked.before
  have hafter := hranked.countP_after_le
  rw [← count_eq] at hafter
  exact ⟨m, hranked.mem, hm, by omega, by omega⟩

/-- The median of an even number of present values is half the sum of the two in the middle. -/
theorem median_of_even (hpos : 0 < (of values).count) (h : (of values).count % 2 = 0) :
    ∃ a b, Double.Ranked (values.filterMap id) ((of values).count / 2) a ∧
      Double.Ranked (values.filterMap id) ((of values).count / 2 + 1) b ∧
        (of values).median = some ((a + b) / Double.two) := by
  have hcount : (present values).length = (of values).count := rfl
  obtain ⟨before, hbefore⟩ : ∃ before, (of values).count / 2 = before + 1 :=
    Nat.exists_eq_succ_of_ne_zero (by omega)
  have hhalf : before + 1 < (present values).length := by omega
  have hfirst := List.getElem?_eq_getElem (Nat.lt_of_succ_lt hhalf)
  have hsecond := List.getElem?_eq_getElem hhalf
  refine ⟨(present values)[before], (present values)[before + 1], ?_, ?_, ?_⟩
  · rw [hbefore]
    exact ranked_present hfirst
  · rw [hbefore]
    exact ranked_present hsecond
  · rw [← checkedMedian_present]
    simp [checkedMedian, hcount, h, hbefore, difference?, hfirst, hsecond]

/-- A zero of either sign is counted. -/
theorem zeros_eq_countP :
    (of values).zeros = (values.filterMap id).countP fun x => x = .zero ∨ x = .negZero := by
  rw [zeros_eq]
  refine List.countP_congr fun x _ => ?_
  simp [Double.isZero_iff]

/-- The moments and the order statistics. -/
def moments (s : NumericStatistics) : List (Option Double) :=
  [s.mean, s.variance, s.stdDev, s.min, s.median, s.max]

theorem isSome_moments :
    ∀ moment ∈ (of values).moments, moment.isSome = true ↔ 0 < (of values).count := by
  have hcount : (of values).count = (present values).length := rfl
  rw [hcount]
  simp only [moments, of]
  cases present values with
  | nil => simp
  | cons first rest => simp

theorem eq_none_of_moments (h : (of values).count = 0) :
    ∀ moment ∈ (of values).moments, moment = none := by
  intro moment hmoment
  rw [← Option.not_isSome_iff_eq_none, isSome_moments values moment hmoment, h]
  exact Nat.lt_irrefl 0

/-- Statistics tell how many of some cells are there, how many of these are zeros, and which of them
come first, in the middle and last in the total order. -/
structure Describes (values : List (Option Double)) (s : NumericStatistics) : Prop where
  count : s.count = (values.filterMap id).length
  count_add_missing : s.count + s.missing = values.length
  zeros : s.zeros = (values.filterMap id).countP fun x => x = .zero ∨ x = .negZero
  present : 0 < s.count → ∀ moment ∈ s.moments, ∃ x, moment = some x
  absent : s.count = 0 → ∀ moment ∈ s.moments, moment = none
  min : ∀ x, s.min = some x →
    x ∈ values.filterMap id ∧ ∀ y ∈ values.filterMap id, x.totalLE y = true
  max : ∀ x, s.max = some x →
    x ∈ values.filterMap id ∧ ∀ y ∈ values.filterMap id, y.totalLE x = true
  median_odd : s.count % 2 = 1 → ∃ m ∈ values.filterMap id, s.median = some m ∧
    (values.filterMap id).countP (fun y => y.totalLT m) ≤ (s.count - 1) / 2 ∧
    (values.filterMap id).countP (fun y => m.totalLT y) ≤ (s.count - 1) / 2
  median_even : 0 < s.count → s.count % 2 = 0 → ∃ a b,
    Double.Ranked (values.filterMap id) (s.count / 2) a ∧
    Double.Ranked (values.filterMap id) (s.count / 2 + 1) b ∧
    s.median = some ((a + b) / Double.two)

/-- The statistics of some cells describe their numbers. The two places where they could fail, a
difference below zero and a look-up beyond the sorted numbers, give what the statistics hold. -/
theorem describes_numbers :
    Describes values (of values) ∧
      difference? values.length (of values).count = some (of values).missing ∧
      checkedMedian (NumericStatistics.present values) = (of values).median := by
  refine ⟨?_, by rw [← count_add_missing, difference?_add], checkedMedian_present values⟩
  refine ⟨count_eq values, count_add_missing values, zeros_eq_countP values, ?_,
    eq_none_of_moments values, ?_, ?_, countP_median_of_odd values, median_of_even values⟩
  · intro hpos moment hmoment
    exact Option.isSome_iff_exists.1 ((isSome_moments values moment hmoment).2 hpos)
  · intro x hx
    have hmin := extreme_min values
    rwa [hx, Extreme.some_iff] at hmin
  · intro x hx
    have hmax := extreme_max values
    rwa [hx, Extreme.some_iff] at hmax

end NumericStatistics

end Tableflow
