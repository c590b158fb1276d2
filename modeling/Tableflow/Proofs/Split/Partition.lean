import Tableflow.Proofs.Except
import Tableflow.Proofs.Table.Rows
import Tableflow.Table.Split

/-!
# A split is a partition of the rows

Which rows a split tests on and which it trains on is told by their number and the configuration
alone (`Split.testOf`, `Split.trainOf`), and the positions of both share the rows out between them
(`Split.Partition`). Features and labels are picked at the same positions (`Split.TakenAt`), so read
side by side no row is lost, repeated, shared or torn apart (`Split.Conserves`).

The main statement is `Split.ofSource_partitions`, for words from any source.
-/

namespace Tableflow.Split

/-! ## Positions -/

/-- Positions of test and training rows share out some rows as a configuration asks. -/
structure Partition (config : SplitConfig) (rows : Nat) (test train : List Nat) : Prop where
  sizes : config.sizes rows = .ok ⟨train.length, test.length⟩
  test_pos : 0 < test.length
  train_pos : 0 < train.length
  length_add : train.length + test.length = rows
  perm : (test ++ train).Perm (List.range rows)
  ordered : config.shuffle = false → train ++ test = List.range rows

section

variable {σ : Type u} (next : σ → UInt32 × σ) (seeded : UInt64 → σ)

/-- The positions of the test rows among a number of rows. -/
def testOf (config : SplitConfig) (rows : Nat) : List Nat :=
  match config.sizes rows with
  | .ok sizes =>
    testPositions config.shuffle sizes (rowOrder next (seeded config.seed) config.shuffle rows)
  | .error _ => []

/-- The positions of the training rows among a number of rows. -/
def trainOf (config : SplitConfig) (rows : Nat) : List Nat :=
  match config.sizes rows with
  | .ok sizes =>
    trainPositions config.shuffle sizes (rowOrder next (seeded config.seed) config.shuffle rows)
  | .error _ => []

end

section

variable {shuffle : Bool} {sizes : SplitSizes} {order : List Nat}

theorem length_testPositions (h : sizes.train + sizes.test = order.length) :
    (testPositions shuffle sizes order).length = sizes.test := by
  cases shuffle
  · rw [testPositions, if_neg Bool.false_ne_true, List.length_drop]
    omega
  · rw [testPositions, if_pos rfl, List.length_take]
    omega

theorem length_trainPositions (h : sizes.train + sizes.test = order.length) :
    (trainPositions shuffle sizes order).length = sizes.train := by
  cases shuffle
  · rw [trainPositions, if_neg Bool.false_ne_true, List.length_take]
    omega
  · rw [trainPositions, if_pos rfl, List.length_drop]
    omega

/-- Rows that are not shuffled are cut with the training rows in front. -/
theorem trainPositions_append_testPositions :
    trainPositions false sizes order ++ testPositions false sizes order = order :=
  List.take_append_drop ..

theorem testPositions_append_trainPositions_perm :
    (testPositions shuffle sizes order ++ trainPositions shuffle sizes order).Perm order := by
  cases shuffle
  · exact List.perm_append_comm.trans (.of_eq trainPositions_append_testPositions)
  · exact .of_eq (List.take_append_drop ..)

/-- An order of the rows that is cut at the sizes of a configuration shares them out. -/
theorem partition_of_perm {config : SplitConfig} {rows : Nat}
    (hsizes : config.sizes rows = .ok sizes) (hperm : order.Perm (List.range rows))
    (hplain : config.shuffle = false → order = List.range rows) :
    Partition config rows (testPositions config.shuffle sizes order)
      (trainPositions config.shuffle sizes order) := by
  obtain ⟨htrain, htest, hsum⟩ := SplitConfig.sizes_sum hsizes
  have hlength : sizes.train + sizes.test = order.length := by
    rw [hsum, hperm.length_eq, List.length_range]
  refine ⟨?_, ?_, ?_, ?_, testPositions_append_trainPositions_perm.trans hperm, fun h => ?_⟩
  · rw [length_testPositions hlength, length_trainPositions hlength, hsizes]
  · rwa [length_testPositions hlength]
  · rwa [length_trainPositions hlength]
  · rwa [length_testPositions hlength, length_trainPositions hlength]
  · rw [h, trainPositions_append_testPositions, hplain h]

end

/-! ## Rows -/

/-- The parts of a split are the rows of features and labels at some positions, in their order. -/
structure TakenAt (s : Split) (features : Table) (labels : Series) (test train : List Nat) :
    Prop where
  xTest : features.take test = .ok s.xTest
  yTest : labels.take test = .ok s.yTest
  xTrain : features.take train = .ok s.xTrain
  yTrain : labels.take train = .ok s.yTrain

/-- Row by row, features and labels in the parts of a split come from the same positions. -/
structure Aligned (s : Split) (features : Table) (labels : Series) (test train : List Nat) :
    Prop where
  test : ∀ i, s.xTest.row? i = test[i]?.bind features.row? ∧
    s.yTest.row? i = test[i]?.bind labels.row?
  train : ∀ i, s.xTrain.row? i = train[i]?.bind features.row? ∧
    s.yTrain.row? i = train[i]?.bind labels.row?

/-- The rows of features with those of their labels. -/
def labeledRows (features : Table) (labels : Series) : List (Row × Row) :=
  features.rows.zip labels.rows

/-- Every row is in one of the parts of a split, once and with its label. -/
structure Conserves (s : Split) (features : Table) (labels : Series) (shuffle : Bool) : Prop where
  perm : (labeledRows s.xTest s.yTest ++ labeledRows s.xTrain s.yTrain).Perm
    (labeledRows features labels)
  ordered : shuffle = false →
    labeledRows s.xTrain s.yTrain ++ labeledRows s.xTest s.yTest = labeledRows features labels

variable {features : Table} {labels : Series}

theorem row?_of_take {positions : List Nat} {x : Table} {y : Series}
    (hx : features.take positions = .ok x) (hy : labels.take positions = .ok y) (i : Nat) :
    x.row? i = positions[i]?.bind features.row? ∧ y.row? i = positions[i]?.bind labels.row? := by
  obtain ⟨hfeatures, rfl⟩ := Table.exists_of_take_eq_ok hx
  obtain ⟨hlabels, rfl⟩ := Series.exists_of_take_eq_ok hy
  exact ⟨Table.row?_select hfeatures i, Series.row?_select hlabels i⟩

/-- Rows and their labels are picked at the same positions. -/
theorem labeledRows_of_take {positions : List Nat} {x : Table} {y : Series}
    (hrows : labels.length = features.numRows) (hx : features.take positions = .ok x)
    (hy : labels.take positions = .ok y) :
    labeledRows x y = pick (labeledRows features labels) positions := by
  obtain ⟨hfeatures, rfl⟩ := Table.exists_of_take_eq_ok hx
  obtain ⟨hlabels, rfl⟩ := Series.exists_of_take_eq_ok hy
  rw [labeledRows, labeledRows, Table.rows_select, Series.rows_select, pick_zip]
  · rw [Table.length_rows, Series.length_rows, hrows]
  · rwa [Table.length_rows]

theorem TakenAt.aligned {s : Split} {test train : List Nat}
    (h : s.TakenAt features labels test train) : s.Aligned features labels test train :=
  ⟨row?_of_take h.xTest h.yTest, row?_of_take h.xTrain h.yTrain⟩

theorem TakenAt.conserves {s : Split} {config : SplitConfig} {test train : List Nat}
    (h : s.TakenAt features labels test train) (hrows : labels.length = features.numRows)
    (hpartition : Partition config features.numRows test train) :
    s.Conserves features labels config.shuffle := by
  have hlength : (labeledRows features labels).length = features.numRows := by
    rw [labeledRows, List.length_zip, Table.length_rows, Series.length_rows, hrows, Nat.min_self]
  have htest := labeledRows_of_take hrows h.xTest h.yTest
  have htrain := labeledRows_of_take hrows h.xTrain h.yTrain
  rw [← hlength] at hpartition
  refine ⟨?_, fun hshuffle => ?_⟩
  · rw [htest, htrain, ← pick_append]
    exact pick_perm hpartition.perm
  · rw [htest, htrain, ← pick_append, hpartition.ordered hshuffle, pick_range]

/-! ## Splitting -/

section

variable {σ : Type u} (next : σ → UInt32 × σ) (source : σ) {config : SplitConfig}

theorem ofSource_of_length_ne (hrows : labels.length ≠ features.numRows) :
    ofSource next source features labels config =
      .error (.lengths features.numRows labels.length) :=
  dif_neg hrows

theorem ofSource_of_sizes_error (hrows : labels.length = features.numRows) {defect : SplitDefect}
    (hsizes : config.sizes features.numRows = .error defect) :
    ofSource next source features labels config = .error defect := by
  rw [ofSource, dif_pos hrows, hsizes]
  rfl

/-- Where the sizes are right the rows are picked, and every pick succeeds. -/
theorem ofSource_of_sizes_ok (hrows : labels.length = features.numRows) {sizes : SplitSizes}
    (hsizes : config.sizes features.numRows = .ok sizes) :
    ∃ s, ofSource next source features labels config = .ok s ∧
      s.TakenAt features labels
        (testPositions config.shuffle sizes
          (rowOrder next source config.shuffle features.numRows))
        (trainPositions config.shuffle sizes
          (rowOrder next source config.shuffle features.numRows)) := by
  have horder : ∀ p ∈ rowOrder next source config.shuffle features.numRows,
      p < features.numRows := fun p hp =>
    List.mem_range.1 ((rowOrder_perm next source config.shuffle features.numRows).mem_iff.1 hp)
  rw [ofSource, dif_pos hrows, hsizes]
  refine ⟨_, rfl, ?_, ?_, ?_, ?_⟩
  · exact Table.take_of_lt fun p hp => horder p (mem_of_mem_testPositions hp)
  · exact Series.take_of_lt fun p hp => hrows ▸ horder p (mem_of_mem_testPositions hp)
  · exact Table.take_of_lt fun p hp => horder p (mem_of_mem_trainPositions hp)
  · exact Series.take_of_lt fun p hp => hrows ▸ horder p (mem_of_mem_trainPositions hp)

/-- The order of the rows, cut at the sizes of a configuration, shares them out. -/
theorem partition_rowOrder {rows : Nat} {sizes : SplitSizes}
    (hsizes : config.sizes rows = .ok sizes) :
    Partition config rows
      (testPositions config.shuffle sizes (rowOrder next source config.shuffle rows))
      (trainPositions config.shuffle sizes (rowOrder next source config.shuffle rows)) :=
  partition_of_perm hsizes (rowOrder_perm ..) fun hshuffle => if_neg (by simp [hshuffle])

/-- A split is taken at the positions that the number of rows and the configuration tell, and these
share the rows out. -/
theorem takenAt_of_ofSource_eq_ok (seeded : UInt64 → σ) {s : Split}
    (h : ofSource next (seeded config.seed) features labels config = .ok s) :
    Partition config features.numRows (testOf next seeded config features.numRows)
        (trainOf next seeded config features.numRows) ∧
      s.TakenAt features labels (testOf next seeded config features.numRows)
        (trainOf next seeded config features.numRows) := by
  by_cases hrows : labels.length = features.numRows
  · cases hsizes : config.sizes features.numRows with
    | error defect =>
      rw [ofSource_of_sizes_error next _ hrows hsizes] at h
      cases h
    | ok sizes =>
      obtain ⟨s', hs', htaken⟩ := ofSource_of_sizes_ok next (seeded config.seed) hrows hsizes
      obtain rfl := Except.ok.inj (hs'.symm.trans h)
      rw [testOf, trainOf, hsizes]
      exact ⟨partition_rowOrder next _ hsizes, htaken⟩
  · rw [ofSource_of_length_ne next _ hrows] at h
    cases h

/-- A split is taken at positions that share the rows out. -/
theorem exists_of_ofSource_eq_ok {s : Split}
    (h : ofSource next source features labels config = .ok s) :
    ∃ test train, Partition config features.numRows test train ∧
      s.TakenAt features labels test train :=
  ⟨_, _, takenAt_of_ofSource_eq_ok next (fun _ => source) h⟩

end

/-- Whatever words the shuffle is given, splitting fails only for labels of another length or where
there are no sizes, and otherwise it shares out the rows of features and labels at positions that
their number and the configuration tell. -/
theorem ofSource_partitions {σ : Type u} (next : σ → UInt32 × σ) (seeded : UInt64 → σ) :
    ∃ test train : SplitConfig → Nat → List Nat,
      ∀ (features : Table) (labels : Series) (config : SplitConfig),
        let rows := features.numRows
        let result := ofSource next (seeded config.seed) features labels config
        (∀ defect, result = .error defect ↔
          labels.length ≠ rows ∧ defect = .lengths rows labels.length ∨
            labels.length = rows ∧ config.sizes rows = .error defect) ∧
          ∀ s, result = .ok s →
            Partition config rows (test config rows) (train config rows) ∧
              s.TakenAt features labels (test config rows) (train config rows) ∧
              s.Aligned features labels (test config rows) (train config rows) ∧
              s.Conserves features labels config.shuffle := by
  refine ⟨testOf next seeded, trainOf next seeded, fun features labels config => ?_⟩
  intro rows result
  by_cases hrows : labels.length = rows
  · cases hsizes : config.sizes rows with
    | error defect =>
      have hresult : result = .error defect := ofSource_of_sizes_error next _ hrows hsizes
      refine ⟨fun other => ?_, fun s hs => ?_⟩
      · simp [hresult, hrows]
      · rw [hresult] at hs
        cases hs
    | ok sizes =>
      obtain ⟨s, hs, htaken⟩ := ofSource_of_sizes_ok next (seeded config.seed) hrows hsizes
      have hpartition : Partition config rows (testOf next seeded config rows)
          (trainOf next seeded config rows) := by
        rw [testOf, trainOf, hsizes]
        exact partition_rowOrder next _ hsizes
      have htaken : s.TakenAt features labels (testOf next seeded config rows)
          (trainOf next seeded config rows) := by
        rw [testOf, trainOf, hsizes]
        exact htaken
      refine ⟨fun other => ?_, fun s' hs' => ?_⟩
      · simp [result, hs, hrows]
      · obtain rfl := Except.ok.inj (hs.symm.trans hs')
        exact ⟨hpartition, htaken, htaken.aligned, htaken.conserves hrows hpartition⟩
  · have hresult : result = .error (.lengths rows labels.length) :=
      ofSource_of_length_ne next _ hrows
    refine ⟨fun other => ?_, fun s hs => ?_⟩
    · simp [hresult, hrows, eq_comm]
    · rw [hresult] at hs
      cases hs

/-! ## A split of five rows -/

/-- Five rows of two columns with missing cells in both. -/
def pets : Table where
  index := [0, 1, 2, 3, 4]
  columns :=
    [⟨"weight", .numeric [some .two, none, some .negZero, some .one, some .zero]⟩,
      ⟨"kind", .categorical [some "cat", some "dog", none, some "cat", some "ant"]⟩]
  names_nodup := by decide
  length_columns := by decide

/-- A label for each of the five rows. -/
def owners : Series :=
  .ofColumn ⟨"owner", .categorical [some "Ada", some "Bo", some "Cy", none, some "Ada"]⟩

/-- Multiples of a word in turn. -/
def multiples (n : Nat) : UInt32 × Nat := (UInt32.ofNat (n * 0x9e3779b9), n + 1)

/-- Of five rows one is tested on, which the multiples make the one in the middle. -/
theorem exists_ofSource_pets :
    ∃ s, ofSource multiples 1 pets owners .default = .ok s ∧ s.xTest.index = [2] := by
  have hindex : ((ofSource multiples 1 pets owners .default).toOption.map
      fun s => s.xTest.index) = some [2] := by
    decide +kernel
  exact exists_of_toOption_map hindex

/-- The row in the middle and the others share the rows out, with their labels. -/
theorem pets_partitioned :
    ∃ test train s, ofSource multiples 1 pets owners .default = .ok s ∧
      Partition .default 5 test train ∧ s.TakenAt pets owners test train ∧
      s.Conserves pets owners true ∧ s.xTest.index = [2] := by
  obtain ⟨test, train, hsplit⟩ := ofSource_partitions multiples fun _ => 1
  obtain ⟨s, hs, hindex⟩ := exists_ofSource_pets
  obtain ⟨hpartition, htaken, -, hconserves⟩ := (hsplit pets owners .default).2 s hs
  exact ⟨_, _, s, hs, hpartition, htaken, hconserves, hindex⟩

end Tableflow.Split
