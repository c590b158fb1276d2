import Tableflow.Random.ChaCha
import Tableflow.Random.Shuffle
import Tableflow.Table

/-!
# Splitting a table into training and test rows

A split holds out a fraction of the rows for testing, rounded up. The rows stand in an order that
depends on their number and the configuration alone (`rowOrder`): shuffled, with the test rows in
front, or as they are, with the test rows at the end. Since the order is a permutation of the rows
(`rowOrder_perm`), no row is lost, repeated or shared, and picking rows from the features and from
the labels cannot fail.
-/

namespace Tableflow

/-- How rows are split: the fraction held out for testing, and whether and from which seed the rows
are shuffled. -/
structure SplitConfig where
  testSize : Double
  seed : UInt64
  shuffle : Bool
  deriving DecidableEq

/-- The numbers of training and test rows. -/
structure SplitSizes where
  train : Nat
  test : Nat
  deriving DecidableEq

namespace SplitConfig

/-- A fifth of the rows, shuffled. -/
def default : SplitConfig := ⟨⟨0x3fc999999999999a⟩, 42, true⟩

/-- The numbers of training and test rows among a number of rows; neither is zero. -/
def sizes (config : SplitConfig) (rows : Nat) : Except SplitDefect SplitSizes :=
  if config.testSize.isProperFraction then
    let test := (Double.ofNat rows * config.testSize).ceilWord
    let train := rows - test
    if test = 0 || train = 0 then .error (.emptyPartition config.testSize rows train test)
    else .ok ⟨train, test⟩
  else .error (.testSize config.testSize)

theorem sizes_sum {config : SplitConfig} {rows : Nat} {sizes : SplitSizes}
    (h : config.sizes rows = .ok sizes) :
    0 < sizes.train ∧ 0 < sizes.test ∧ sizes.train + sizes.test = rows := by
  simp only [SplitConfig.sizes] at h
  split at h
  · split at h
    · cases h
    · next hpositive =>
      cases h
      simp only [Bool.or_eq_true, decide_eq_true_eq, not_or] at hpositive
      dsimp only
      omega
  · cases h

end SplitConfig

namespace Split

/-! ## The order of the rows -/

/-- The positions of `rows` rows in the order in which they are split, with the words for the
shuffle taken from a source. -/
def rowOrder {σ : Type u} (next : σ → UInt32 × σ) (source : σ) (shuffle : Bool) (rows : Nat) :
    List Nat :=
  if shuffle then (Random.shuffle next source (Array.range rows)).toList else List.range rows

theorem rowOrder_perm {σ : Type u} (next : σ → UInt32 × σ) (source : σ) (shuffle : Bool)
    (rows : Nat) : (rowOrder next source shuffle rows).Perm (List.range rows) := by
  unfold rowOrder
  split
  · simpa using (Random.shuffle_perm next source (Array.range rows)).toList
  · exact .rfl

/-- The positions of the test rows: those in front if the rows are shuffled, else those at the
end. -/
def testPositions (shuffle : Bool) (sizes : SplitSizes) (order : List Nat) : List Nat :=
  if shuffle then order.take sizes.test else order.drop sizes.train

/-- The positions of the training rows, which are the others. -/
def trainPositions (shuffle : Bool) (sizes : SplitSizes) (order : List Nat) : List Nat :=
  if shuffle then order.drop sizes.test else order.take sizes.train

theorem mem_of_mem_testPositions {shuffle : Bool} {sizes : SplitSizes} {order : List Nat} {p : Nat}
    (h : p ∈ testPositions shuffle sizes order) : p ∈ order := by
  unfold testPositions at h
  split at h
  · exact List.mem_of_mem_take h
  · exact List.mem_of_mem_drop h

theorem mem_of_mem_trainPositions {shuffle : Bool} {sizes : SplitSizes} {order : List Nat}
    {p : Nat} (h : p ∈ trainPositions shuffle sizes order) : p ∈ order := by
  unfold trainPositions at h
  split at h
  · exact List.mem_of_mem_drop h
  · exact List.mem_of_mem_take h

end Split

/-! ## Splits -/

/-- Training and test rows of a feature table and its labels. -/
structure Split where
  xTrain : Table
  xTest : Table
  yTrain : Series
  yTest : Series
  deriving DecidableEq

namespace Split

/-- Splits features and labels row by row, with the words for the shuffle taken from a source. -/
def ofSource {σ : Type u} (next : σ → UInt32 × σ) (source : σ) (features : Table) (labels : Series)
    (config : SplitConfig) : Except SplitDefect Split :=
  if hrows : labels.length = features.numRows then
    (config.sizes features.numRows).map fun sizes =>
      let order := rowOrder next source config.shuffle features.numRows
      have inOrder : ∀ p ∈ order, p < features.numRows := fun p hp => by
        simpa using (rowOrder_perm next source config.shuffle features.numRows).mem_iff.1 hp
      have test_lt : ∀ p ∈ testPositions config.shuffle sizes order, p < features.numRows :=
        fun p hp => inOrder p (mem_of_mem_testPositions hp)
      have train_lt : ∀ p ∈ trainPositions config.shuffle sizes order, p < features.numRows :=
        fun p hp => inOrder p (mem_of_mem_trainPositions hp)
      { xTrain := features.select _ train_lt
        xTest := features.select _ test_lt
        yTrain := labels.select _ fun p hp => Nat.lt_of_lt_of_eq (train_lt p hp) hrows.symm
        yTest := labels.select _ fun p hp => Nat.lt_of_lt_of_eq (test_lt p hp) hrows.symm }
  else .error (.lengths features.numRows labels.length)

/-- Splits features and labels row by row; equal configurations split equally. -/
def of (features : Table) (labels : Series) (config : SplitConfig) : Except SplitDefect Split :=
  ofSource Random.Keystream.next (Random.Keystream.ofSeed config.seed) features labels config

end Split

end Tableflow
