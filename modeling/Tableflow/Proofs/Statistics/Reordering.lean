import Tableflow.Proofs.Split.Partition
import Tableflow.Proofs.Statistics.Categorical

/-!
# Statistics of reordered rows

The statistics of a column, sums in double arithmetic among them, depend on which cells it has and
not on their order (`NumericStatistics.of_perm`, `CategoricalStatistics.of_perm`). So a table whose
rows are picked in another order has the statistics of the table (`statistics_of_reordered`).
-/

namespace Tableflow

/-- The order in which texts are counted does not show. -/
theorem Dictionary.foldl_tally_perm {texts texts' : List String} (h : texts.Perm texts') :
    texts.foldl tally empty = texts'.foldl tally empty := by
  apply ext_find?
  intro text
  simp only [find?_foldl_tally, h.mem_iff, h.count_eq]

theorem CategoricalStatistics.of_perm {values values' : List (Option String)}
    (h : values.Perm values') : of values = of values' := by
  have hpresent := h.filterMap id
  have hlength : ∀ n : Nat, (values.filterMap id).foldl (fun n text => n + text.length) n =
      (values'.filterMap id).foldl (fun n text => n + text.length) n :=
    hpresent.foldl_eq' fun _ _ _ _ _ => Nat.add_right_comm ..
  simp only [of, Dictionary.foldl_tally_perm hpresent, hlength, h.length_eq]

theorem FeatureStatistics.of_take_perm {c : Column} {positions : List Nat}
    (h : positions.Perm (List.range c.length)) : of (c.take positions) = of c := by
  obtain ⟨name, cells⟩ := c
  cases cells with
  | numeric values =>
    have hvalues : NumericStatistics.of (pick values positions) = .of values :=
      NumericStatistics.of_perm (pick_perm h)
    simp only [of, Column.take, Cells.take, hvalues]
  | categorical values =>
    have hvalues : CategoricalStatistics.of (pick values positions) = .of values :=
      CategoricalStatistics.of_perm (pick_perm h)
    simp only [of, Column.take, Cells.take, hvalues]

theorem DatasetStatistics.of_take_perm (name : String) {t : Table} {positions : List Nat}
    (h : positions.Perm (List.range t.numRows)) :
    ∃ taken, t.take positions = .ok taken ∧ of name taken = of name t := by
  have hlt : ∀ p ∈ positions, p < t.numRows := fun p hp => List.mem_range.1 (h.mem_iff.1 hp)
  refine ⟨_, Table.take_of_lt hlt, ?_⟩
  have hrows : (t.select positions hlt).numRows = t.numRows := by
    rw [Table.numRows, Table.select, length_pick hlt, h.length_eq, List.length_range]
  have hfeatures : (t.select positions hlt).columns.map FeatureStatistics.of =
      t.columns.map .of := by
    rw [Table.select, List.map_map]
    apply List.map_congr_left
    intro c hc
    exact FeatureStatistics.of_take_perm (by rwa [t.length_columns c hc])
  rw [of, of, hrows, hfeatures]

/-- Statistics are the same, bit for bit, for cells in any order, and so are those of a table for
its rows in any order. -/
theorem statistics_of_reordered :
    (∀ {values values' : List (Option Double)}, values.Perm values' →
      NumericStatistics.of values = .of values') ∧
    (∀ {values values' : List (Option String)}, values.Perm values' →
      CategoricalStatistics.of values = .of values') ∧
    ∀ (name : String) {t : Table} {positions : List Nat},
      positions.Perm (List.range t.numRows) →
        ∃ taken, t.take positions = .ok taken ∧
          DatasetStatistics.of name taken = .of name t :=
  ⟨NumericStatistics.of_perm, CategoricalStatistics.of_perm, DatasetStatistics.of_take_perm⟩

/-- Numbers of both signs that are not a number, and both zeros, in two orders; and a table with its
rows turned around. -/
theorem pets_reversed :
    NumericStatistics.of [some (.nan true), some .zero, none, some .negZero, some (.nan false)] =
        .of [some .negZero, some (.nan false), some (.nan true), some .zero, none] ∧
      CategoricalStatistics.of [some "cat", none, some "ant"] = .of [some "ant", some "cat", none] ∧
      ∃ taken, Split.pets.take [4, 3, 2, 1, 0] = .ok taken ∧ taken ≠ Split.pets ∧
        DatasetStatistics.of "pets" taken = .of "pets" Split.pets := by
  obtain ⟨hnumbers, htexts, htables⟩ := statistics_of_reordered
  refine ⟨hnumbers (by decide), htexts (by decide), ?_⟩
  have hrows : [4, 3, 2, 1, 0].Perm (List.range Split.pets.numRows) := by decide
  obtain ⟨taken, htaken, hstatistics⟩ := htables "pets" hrows
  refine ⟨taken, htaken, ?_, hstatistics⟩
  obtain ⟨_, rfl⟩ := Table.exists_of_take_eq_ok htaken
  intro h
  have hindex : pick Split.pets.index [4, 3, 2, 1, 0] = Split.pets.index := congrArg Table.index h
  exact absurd hindex (by decide)

end Tableflow
