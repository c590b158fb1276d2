import Tableflow.Proofs.Split.Partition
import Tableflow.Proofs.Statistics.Categorical
import Tableflow.Proofs.Statistics.Numeric

/-!
# Statistics of a split

The statistics of a table are put together, column by column, from those of the two parts it is
split into (`Split.statistics_joined`). A column is taken at positions that share its cells out, so
that nothing is counted twice or left out (`FeatureStatistics.joined_of_take`).
-/

namespace Tableflow

/-! ## Putting statistics together -/

/-- The statistics of a column are put together from those of two columns of its type. -/
inductive FeatureKind.Joined : FeatureKind → FeatureKind → FeatureKind → Prop
  | numeric {a b whole : NumericStatistics} :
    a.Joined b whole → Joined (.numeric a) (.numeric b) (.numeric whole)
  | categorical {a b whole : CategoricalStatistics} :
    a.Joined b whole → Joined (.categorical a) (.categorical b) (.categorical whole)

/-- The statistics of a column are put together from those of two columns of its name and type. -/
structure FeatureStatistics.Joined (a b whole : FeatureStatistics) : Prop where
  name : a.name = whole.name ∧ b.name = whole.name
  stats : a.stats.Joined b.stats whole.stats

/-- The statistics of some columns are put together from those of as many columns of two tables,
each from those that stand in its place. -/
inductive FeatureStatistics.AllJoined :
    List FeatureStatistics → List FeatureStatistics → List FeatureStatistics → Prop
  | nil : AllJoined [] [] []
  | cons {a b whole : FeatureStatistics} {as bs wholes : List FeatureStatistics} :
    a.Joined b whole → AllJoined as bs wholes → AllJoined (a :: as) (b :: bs) (whole :: wholes)

/-- The statistics of a table are put together from those of two tables. -/
structure DatasetStatistics.Joined (a b whole : DatasetStatistics) : Prop where
  numRows : whole.numRows = a.numRows + b.numRows
  features : FeatureStatistics.AllJoined a.features b.features whole.features

/-! ## Columns taken at positions -/

variable {train test : List Nat}

theorem FeatureStatistics.joined_of_take {c : Column}
    (h : (train ++ test).Perm (List.range c.length)) :
    Joined (.of (c.take train)) (.of (c.take test)) (.of c) := by
  obtain ⟨name, cells⟩ := c
  refine ⟨⟨rfl, rfl⟩, ?_⟩
  cases cells with
  | numeric values => exact .numeric (NumericStatistics.joined_of_perm (pick_append_pick_perm h))
  | categorical values =>
    exact .categorical (CategoricalStatistics.joined_of_perm (pick_append_pick_perm h))

theorem FeatureStatistics.allJoined_of_take {columns : List Column}
    (h : ∀ c ∈ columns, (train ++ test).Perm (List.range c.length)) :
    AllJoined ((columns.map (·.take train)).map .of) ((columns.map (·.take test)).map .of)
      (columns.map .of) := by
  induction columns with
  | nil => exact .nil
  | cons c rest ih =>
    obtain ⟨hc, hrest⟩ := List.forall_mem_cons.1 h
    exact .cons (joined_of_take hc) (ih hrest)

theorem DatasetStatistics.joined_of_take {t tTrain tTest : Table}
    (h : (train ++ test).Perm (List.range t.numRows)) (htrain : t.take train = .ok tTrain)
    (htest : t.take test = .ok tTest) (trainName testName name : String) :
    Joined (.of trainName tTrain) (.of testName tTest) (.of name t) := by
  obtain ⟨hltTrain, rfl⟩ := Table.exists_of_take_eq_ok htrain
  obtain ⟨hltTest, rfl⟩ := Table.exists_of_take_eq_ok htest
  refine ⟨?_, FeatureStatistics.allJoined_of_take fun c hc => ?_⟩
  · have hlength := h.length_eq
    rw [List.length_append, List.length_range] at hlength
    calc t.numRows = train.length + test.length := hlength.symm
      _ = (pick t.index train).length + (pick t.index test).length := by
        rw [length_pick hltTrain, length_pick hltTest]
  · rwa [t.length_columns c hc]

/-! ## Splits -/

/-- The parts of a split have the columns of the features, and the statistics of the features are
put together from theirs. -/
theorem Split.statistics_joined {σ : Type u} (next : σ → UInt32 × σ) (source : σ) (features : Table)
    (labels : Series) (config : SplitConfig) {s : Split}
    (h : ofSource next source features labels config = .ok s)
    (trainName testName name : String) :
    s.xTrain.schema = features.schema ∧ s.xTest.schema = features.schema ∧
      DatasetStatistics.Joined (.of trainName s.xTrain) (.of testName s.xTest)
        (.of name features) := by
  obtain ⟨test, train, hpartition, htaken⟩ := exists_of_ofSource_eq_ok next source h
  have schema_of_take {positions : List Nat} {t : Table} (ht : features.take positions = .ok t) :
      t.schema = features.schema := by
    obtain ⟨hlt, rfl⟩ := Table.exists_of_take_eq_ok ht
    exact Table.schema_select hlt
  have hperm := List.perm_append_comm.trans hpartition.perm
  exact ⟨schema_of_take htaken.xTrain, schema_of_take htaken.xTest,
    DatasetStatistics.joined_of_take hperm htaken.xTrain htaken.xTest trainName testName name⟩

/-- The middle one of five rows is tested on, and its statistics and those of the others add up. -/
theorem Split.pets_statistics_joined :
    ∃ s, ofSource multiples 1 pets owners .default = .ok s ∧ s.xTest.index = [2] ∧
      s.xTrain.schema = [("weight", .numeric), ("kind", .categorical)] ∧
      DatasetStatistics.Joined (.of "train" s.xTrain) (.of "test" s.xTest) (.of "pets" pets) := by
  obtain ⟨s, hs, hindex⟩ := exists_ofSource_pets
  obtain ⟨hschema, -, hjoined⟩ := statistics_joined _ _ _ _ _ hs "train" "test" "pets"
  exact ⟨s, hs, hindex, hschema, hjoined⟩

end Tableflow
