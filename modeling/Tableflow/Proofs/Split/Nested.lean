import Tableflow.Proofs.Split.Labels

/-!
# Holding out more rows

The order of the rows does not depend on how many of them are held out. So of two splits with one
seed, the one that tests on fewer rows tests on the front of the other one's test rows, or on their
back if the rows are not shuffled, and at the other end the same holds of the training rows with the
splits exchanged (`Split.Nests`). A row that the one tests on is never trained on by the other.

The main statement is `Split.holdouts_nested`.
-/

namespace Tableflow

/-! ## Fronts and backs -/

/-- A list is the front of another one, or its back. -/
def Flanks {α : Type u} (front : Bool) (short long : List α) : Prop :=
  if front then short <+: long else short <:+ long

namespace Flanks

variable {α : Type u} {front : Bool} {short long : List α}

theorem subset (h : Flanks front short long) : short ⊆ long := by
  cases front
  · exact List.IsSuffix.subset h
  · exact List.IsPrefix.subset h

/-- What is picked at the front of some positions is at the front of what is picked at all of them,
and the same holds of the back. -/
theorem pick {positions others : List Nat} (h : Flanks front positions others) (items : List α) :
    Flanks front (pick items positions) (Tableflow.pick items others) := by
  cases front
  · obtain ⟨rest, rfl⟩ := h
    rw [pick_append]
    exact List.suffix_append _ _
  · obtain ⟨rest, rfl⟩ := h
    rw [pick_append]
    exact List.prefix_append _ _

end Flanks

/-- The rows of a table are the first ones, or the last ones, of another table with its columns. -/
structure Table.Flanks (front : Bool) (t u : Table) : Prop where
  schema : t.schema = u.schema
  rows : Tableflow.Flanks front t.rows u.rows

namespace Table

variable {t x y : Table} {front : Bool} {positions others : List Nat}

theorem flanks_of_take (h : Tableflow.Flanks front positions others)
    (hx : t.take positions = .ok x) (hy : t.take others = .ok y) : x.Flanks front y := by
  obtain ⟨hpositions, rfl⟩ := exists_of_take_eq_ok hx
  obtain ⟨hothers, rfl⟩ := exists_of_take_eq_ok hy
  refine ⟨?_, ?_⟩
  · rw [schema_select, schema_select]
  · rw [rows_select, rows_select]
    exact h.pick t.rows

/-- Where no id occurs twice, rows that are picked at different positions have different ids. -/
theorem index_disjoint_of_take (hids : t.index.Nodup) (h : positions.Disjoint others)
    (hx : t.take positions = .ok x) (hy : t.take others = .ok y) : x.index.Disjoint y.index := by
  obtain ⟨-, rfl⟩ := exists_of_take_eq_ok hx
  obtain ⟨-, rfl⟩ := exists_of_take_eq_ok hy
  intro id hid hid'
  simp only [select, pick_eq_filterMap, List.mem_filterMap] at hid hid'
  obtain ⟨p, hp, hpid⟩ := hid
  obtain ⟨q, hq, hqid⟩ := hid'
  have hlt := (List.getElem?_eq_some_iff.1 hpid).1
  obtain rfl := (List.getElem?_inj hlt hids).1 (hpid.trans hqid.symm)
  exact h hp hq

end Table

namespace Split

/-! ## Positions of two splits -/

section

variable {shuffle : Bool} {fewer more : SplitSizes}

/-- Fewer test rows are the front of more if the rows are shuffled, and their back otherwise. -/
theorem testPositions_flanks (order : List Nat) (htest : fewer.test ≤ more.test)
    (htrain : more.train ≤ fewer.train) :
    Flanks shuffle (testPositions shuffle fewer order) (testPositions shuffle more order) := by
  cases shuffle
  · exact List.drop_suffix_drop_left order htrain
  · exact List.take_prefix_take_left htest

/-- The training rows beside more test rows are the back of the others if the rows are shuffled, and
their front otherwise. -/
theorem trainPositions_flanks (order : List Nat) (htest : fewer.test ≤ more.test)
    (htrain : more.train ≤ fewer.train) :
    Flanks (!shuffle) (trainPositions shuffle more order) (trainPositions shuffle fewer order) := by
  cases shuffle
  · exact List.take_prefix_take_left htrain
  · exact List.drop_suffix_drop_left order htest

end

section

variable {σ : Type u} (next : σ → UInt32 × σ) (seeded : UInt64 → σ) {config config' : SplitConfig}
  {rows : Nat} {fewer more : SplitSizes}

/-- Configurations with one seed cut one order of the rows, at different places. -/
theorem flanks_of_sizes (hseed : config.seed = config'.seed)
    (hshuffle : config.shuffle = config'.shuffle) (h : config.sizes rows = .ok fewer)
    (h' : config'.sizes rows = .ok more) (htest : fewer.test ≤ more.test) :
    Flanks config.shuffle (testOf next seeded config rows) (testOf next seeded config' rows) ∧
      Flanks (!config.shuffle) (trainOf next seeded config' rows)
        (trainOf next seeded config rows) := by
  have htrain : more.train ≤ fewer.train := by
    obtain ⟨-, -, hsum⟩ := SplitConfig.sizes_sum h
    obtain ⟨-, -, hsum'⟩ := SplitConfig.sizes_sum h'
    omega
  simp only [testOf, trainOf, h, h', ← hseed, ← hshuffle]
  exact ⟨testPositions_flanks _ htest htrain, trainPositions_flanks _ htest htrain⟩

end

/-- No test row of a partition is a training row of it. -/
theorem Partition.disjoint {config : SplitConfig} {rows : Nat} {test train : List Nat}
    (h : Partition config rows test train) : test.Disjoint train := by
  have hnodup := h.perm.nodup_iff.2 List.nodup_range
  exact List.disjoint_of_nodup_append hnodup

/-! ## Nested splits -/

/-- The parts of a split that tests on fewer rows and of one that tests on more: the test rows are
the first ones, or the last ones if they are not shuffled, and the training rows of the other split
are what is left at the other end. -/
structure Nests (shuffle : Bool) (s more : Split) : Prop where
  xTest : s.xTest.Flanks shuffle more.xTest
  yTest : s.yTest.toTable.Flanks shuffle more.yTest.toTable
  xTrain : more.xTrain.Flanks (!shuffle) s.xTrain
  yTrain : more.yTrain.toTable.Flanks (!shuffle) s.yTrain.toTable

variable {features : Table} {labels : Series} {s more : Split}
  {test train test' train' : List Nat}

theorem toTable_take {positions : List Nat} {x : Series} (h : labels.take positions = .ok x) :
    labels.toTable.take positions = .ok x.toTable := by
  rw [Series.take_toTable, h]
  rfl

theorem TakenAt.nests {shuffle : Bool} (h : s.TakenAt features labels test train)
    (h' : more.TakenAt features labels test' train') (htest : Flanks shuffle test test')
    (htrain : Flanks (!shuffle) train' train) : s.Nests shuffle more where
  xTest := Table.flanks_of_take htest h.xTest h'.xTest
  yTest := Table.flanks_of_take htest (toTable_take h.yTest) (toTable_take h'.yTest)
  xTrain := Table.flanks_of_take htrain h'.xTrain h.xTrain
  yTrain := Table.flanks_of_take htrain (toTable_take h'.yTrain) (toTable_take h.yTrain)

theorem TakenAt.numRows_xTest (h : s.TakenAt features labels test train) :
    s.xTest.numRows = test.length := by
  obtain ⟨hlt, hx⟩ := Table.exists_of_take_eq_ok h.xTest
  rw [hx]
  exact length_pick hlt

/-- Of two splits with one seed, the one that tests on fewer rows is nested in the other one, and
none of its test rows is a training row there, by position and, if they are distinct, by id. -/
theorem holdouts_nested {σ : Type u} (next : σ → UInt32 × σ) (seeded : UInt64 → σ)
    {features : Table} {labels : Series} {config config' : SplitConfig}
    (hseed : config.seed = config'.seed) (hshuffle : config.shuffle = config'.shuffle)
    {s more : Split} (hs : ofSource next (seeded config.seed) features labels config = .ok s)
    (hmore : ofSource next (seeded config'.seed) features labels config' = .ok more)
    (hle : s.xTest.numRows ≤ more.xTest.numRows) :
    s.Nests config.shuffle more ∧
      (∃ test train test' train', s.TakenAt features labels test train ∧
        more.TakenAt features labels test' train' ∧
        Partition config features.numRows test train ∧
        Partition config' features.numRows test' train' ∧ test.Disjoint train') ∧
      (features.index.Nodup → s.xTest.index.Disjoint more.xTrain.index) ∧
      (labels.index.Nodup → s.yTest.index.Disjoint more.yTrain.index) := by
  obtain ⟨hpartition, htaken⟩ := takenAt_of_ofSource_eq_ok next seeded hs
  obtain ⟨hpartition', htaken'⟩ := takenAt_of_ofSource_eq_ok next seeded hmore
  rw [htaken.numRows_xTest, htaken'.numRows_xTest] at hle
  obtain ⟨htest, htrain⟩ :=
    flanks_of_sizes next seeded hseed hshuffle hpartition.sizes hpartition'.sizes hle
  have hapart : (testOf next seeded config features.numRows).Disjoint
      (trainOf next seeded config' features.numRows) :=
    List.disjoint_of_subset_left htest.subset hpartition'.disjoint
  refine ⟨htaken.nests htaken' htest htrain,
    ⟨_, _, _, _, htaken, htaken', hpartition, hpartition', hapart⟩, fun hids => ?_, fun hids => ?_⟩
  · exact Table.index_disjoint_of_take hids hapart htaken.xTest htaken'.xTrain
  · exact Table.index_disjoint_of_take (t := labels.toTable) hids hapart (toTable_take htaken.yTest)
      (toTable_take htaken'.yTrain)

/-- Holding out half of five rows leaves two for training. -/
def half (shuffle : Bool) : SplitConfig := ⟨⟨0x3fe0000000000000⟩, 42, shuffle⟩

/-- A fifth of the five pets, which is the one in the middle, is the first row of a half of them. -/
theorem pets_nested :
    ∃ s more, ofSource multiples 1 pets owners .default = .ok s ∧
      ofSource multiples 1 pets owners (half true) = .ok more ∧
      s.xTest.index = [2] ∧ more.xTest.index = [2, 0, 1] ∧ more.xTrain.index = [4, 3] ∧
      s.Nests true more ∧ s.xTest.index.Disjoint more.xTrain.index := by
  obtain ⟨s, hs, htest⟩ := exists_ofSource_pets
  have hindices : ((ofSource multiples 1 pets owners (half true)).toOption.map fun more =>
      (more.xTest.index, more.xTrain.index)) = some ([2, 0, 1], [4, 3]) := by
    decide +kernel
  obtain ⟨more, hmore, hindices⟩ := exists_of_toOption_map hindices
  obtain ⟨htest_more, htrain_more⟩ := Prod.mk.inj hindices
  have hle : s.xTest.numRows ≤ more.xTest.numRows := by
    rw [Table.numRows, Table.numRows, htest, htest_more]
    decide
  have hseed : SplitConfig.default.seed = (half true).seed := rfl
  have hshuffle : SplitConfig.default.shuffle = (half true).shuffle := rfl
  have hids : pets.index.Nodup := by decide
  obtain ⟨hnests, -, hapart, -⟩ :=
    holdouts_nested multiples (fun _ => 1) hseed hshuffle hs hmore hle
  exact ⟨s, more, hs, hmore, htest, htest_more, htrain_more, hnests, hapart hids⟩

end Split

end Tableflow
