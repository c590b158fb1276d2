import Tableflow.Proofs.Except
import Tableflow.Proofs.Table.Sheets
import Tableflow.Table.Csv
import Tableflow.Table.SplitJson

/-!
# What holds of every table and series

Data are `Obtained` if they come out of any chain of making, reading, picking, splitting and turning
series into tables, where the operations that check nothing are those on bare data. All of them are
the data of a table or a series (`Obtained.held`): names are distinct, columns are as long as the
index, and no list is too short for the rows that are taken from it.

The main statement is `obtained_representation`, together with the exact conditions under which data
are made into a table or a series.
-/

namespace Tableflow

open Json (Reals decodeText)

/-! ## Splitting bare data -/

/-- The data of a table or of a series. -/
inductive Data
  | table (sheet : Sheet)
  | series (strip : Strip)

namespace Split

/-- The data of the parts of a split. -/
def parts (s : Split) : List Data :=
  [.table s.xTrain.sheet, .table s.xTest.sheet, .series s.yTrain.strip, .series s.yTest.strip]

/-- The parts of features and labels at positions of training and test rows. -/
def dataAt (features : Sheet) (labels : Strip) (train test : List Nat) :
    ExceptT TableDefect Option (List Data) := do
  let xTrain ← .mk (features.take train)
  let xTest ← .mk (features.take test)
  let yTrain ← .mk (labels.take train)
  let yTest ← .mk (labels.take test)
  return [.table xTrain, .table xTest, .series yTrain, .series yTest]

/-- Splits the data of features and labels row by row. -/
def data {σ : Type u} (next : σ → UInt32 × σ) (source : σ) (features : Sheet) (labels : Strip)
    (config : SplitConfig) : Option (Except Fault (List Data)) :=
  let rows := features.index.length
  if labels.index.length = rows then
    match config.sizes rows with
    | .error defect => some (.error (.invalidSplit defect))
    | .ok sizes =>
      let order := rowOrder next source config.shuffle rows
      (dataAt features labels (trainPositions config.shuffle sizes order)
        (testPositions config.shuffle sizes order)).run.map (Except.mapError .invalidDataset)
  else some (.error (.invalidSplit (.lengths rows labels.index.length)))

theorem TakenAt.dataAt_eq {s : Split} {features : Table} {labels : Series} {test train : List Nat}
    (h : s.TakenAt features labels test train) :
    (dataAt features.sheet labels.strip train test).run = some (.ok s.parts) := by
  simp only [dataAt, Table.take_sheet, Series.take_strip, h.xTrain, h.xTest, h.yTrain, h.yTest]
  rfl

/-- Splitting the data of a table and a series is splitting the table and the series. -/
theorem data_sheet {σ : Type u} (next : σ → UInt32 × σ) (source : σ) (features : Table)
    (labels : Series) (config : SplitConfig) :
    data next source features.sheet labels.strip config =
      some (((ofSource next source features labels config).mapError .invalidSplit).map parts) := by
  have hfeatures : features.sheet.index.length = features.numRows := rfl
  have hlabels : labels.strip.index.length = labels.length := rfl
  rw [data, hfeatures, hlabels]
  by_cases hrows : labels.length = features.numRows
  · rw [if_pos hrows]
    cases hsizes : config.sizes features.numRows with
    | error defect =>
      rw [ofSource_of_sizes_error next source hrows hsizes]
      rfl
    | ok sizes =>
      obtain ⟨s, hs, htaken⟩ := ofSource_of_sizes_ok next source hrows hsizes
      simp only [htaken.dataAt_eq, hs]
      rfl
  · rw [if_neg hrows, ofSource_of_length_ne next source hrows]
    rfl

end Split

/-! ## Obtaining data -/

/-- The data of the tables and series that a program can get hold of. -/
inductive Obtained : Data → Prop
  | ofColumns {columns : List Column} {t : Table} :
    Table.ofColumns columns = .ok t → Obtained (.table t.sheet)
  | withIndex {index : List Nat} {columns : List Column} {t : Table} :
    Table.withIndex index columns = .ok t → Obtained (.table t.sheet)
  | tableOfText {reals : Reals} {text : String} {t : Table} :
    decodeText (Table.ofTree reals) text = .ok t → Obtained (.table t.sheet)
  | seriesOfText {reals : Reals} {text : String} {s : Series} :
    decodeText (Series.ofTree reals) text = .ok s → Obtained (.series s.strip)
  | splitOfText {reals : Reals} {text : String} {s : Split} {part : Data} :
    decodeText (Split.ofTree reals) text = .ok s → part ∈ s.parts → Obtained part
  | parsed {content : String} {delimiter : Char} {t : Table} :
    Csv.parse content delimiter = .ok t → Obtained (.table t.sheet)
  | ofColumn (column : Column) : Obtained (.series (Strip.ofColumn column))
  | rows {sheet sheet' : Sheet} {positions : List Nat} :
    Obtained (.table sheet) → sheet.take positions = some (.ok sheet') → Obtained (.table sheet')
  | values {strip strip' : Strip} {positions : List Nat} :
    Obtained (.series strip) → strip.take positions = some (.ok strip') →
      Obtained (.series strip')
  | otherColumns {sheet rest : Sheet} {label : Strip} {name : String} :
    Obtained (.table sheet) → sheet.splitColumn name = .ok (rest, label) → Obtained (.table rest)
  | splitOff {sheet rest : Sheet} {label : Strip} {name : String} :
    Obtained (.table sheet) → sheet.splitColumn name = .ok (rest, label) → Obtained (.series label)
  | toSheet {strip : Strip} : Obtained (.series strip) → Obtained (.table strip.toSheet)
  | part {σ : Type} {next : σ → UInt32 × σ} {source : σ} {features : Sheet} {labels : Strip}
      {config : SplitConfig} {parts : List Data} {part : Data} :
    Obtained (.table features) → Obtained (.series labels) →
      Split.data next source features labels config = some (.ok parts) → part ∈ parts →
      Obtained part

/-- Data that a table or a series holds. -/
inductive Data.Held : Data → Prop
  | table (t : Table) : Held (.table t.sheet)
  | series (s : Series) : Held (.series s.strip)

theorem Split.held_of_mem_parts {s : Split} {part : Data} (h : part ∈ s.parts) : part.Held := by
  rcases List.mem_cons.1 h with rfl | h
  · exact .table _
  rcases List.mem_cons.1 h with rfl | h
  · exact .table _
  rcases List.mem_cons.1 h with rfl | h
  · exact .series _
  · rw [List.mem_singleton.1 h]
    exact .series _

/-- Whatever is obtained is held by a table or a series. -/
theorem Obtained.held {d : Data} (h : Obtained d) : d.Held := by
  induction h with
  | ofColumns | withIndex | tableOfText | parsed => exact .table _
  | seriesOfText => exact .series _
  | splitOfText _ hpart => exact Split.held_of_mem_parts hpart
  | ofColumn column =>
    rw [← Series.strip_ofColumn]
    exact .series _
  | rows _ htake ih =>
    cases ih with
    | table t =>
      rw [t.take_sheet] at htake
      obtain ⟨t', -, rfl⟩ := exists_of_map_eq_ok (Option.some.inj htake)
      exact .table t'
  | values _ htake ih =>
    cases ih with
    | series s =>
      rw [s.take_strip] at htake
      obtain ⟨s', -, rfl⟩ := exists_of_map_eq_ok (Option.some.inj htake)
      exact .series s'
  | otherColumns _ hsplit ih =>
    cases ih with
    | table t =>
      rw [t.splitColumn_sheet] at hsplit
      obtain ⟨⟨rest, label⟩, -, hparts⟩ := exists_of_map_eq_ok hsplit
      obtain ⟨rfl, rfl⟩ := Prod.mk.inj hparts
      exact .table rest
  | splitOff _ hsplit ih =>
    cases ih with
    | table t =>
      rw [t.splitColumn_sheet] at hsplit
      obtain ⟨⟨rest, label⟩, -, hparts⟩ := exists_of_map_eq_ok hsplit
      obtain ⟨rfl, rfl⟩ := Prod.mk.inj hparts
      exact .series label
  | toSheet _ ih =>
    cases ih with
    | series s =>
      rw [← s.sheet_toTable]
      exact .table _
  | part _ _ hparts hpart ihFeatures ihLabels =>
    cases ihFeatures with
    | table features =>
      cases ihLabels with
      | series labels =>
        rw [Split.data_sheet] at hparts
        obtain ⟨s, -, rfl⟩ := exists_of_map_eq_ok (Option.some.inj hparts)
        exact Split.held_of_mem_parts hpart

/-! ## Taking rows -/

/-- The first of some positions that is no row is reported. -/
def BeyondRows (positions : List Nat) (rows : Nat) (defect : TableDefect) : Prop :=
  ∃ front p back, positions = front ++ p :: back ∧ (∀ q ∈ front, q < rows) ∧ rows ≤ p ∧
    defect = .positionOutOfRange p rows

theorem Admits.of_positions {α : Type} {positions : List Nat} {rows : Nat} {kept : α → Prop}
    {result : Except TableDefect α}
    (hok : (∀ p ∈ positions, p < rows) → ∃ a, result = .ok a ∧ kept a)
    (herror : ∀ p, firstBeyond positions rows = some p →
      result = .error (.positionOutOfRange p rows)) :
    Admits (∀ p ∈ positions, p < rows) (BeyondRows positions rows) kept id result := by
  refine .of_or ?_ hok ?_
  · cases h : firstBeyond positions rows with
    | none => exact .inl (firstBeyond_eq_none_iff.1 h)
    | some p =>
      obtain ⟨front, back, hsplit, hfront, hp⟩ := firstBeyond_eq_some_iff.1 h
      exact .inr ⟨_, front, p, back, hsplit, hfront, hp, rfl⟩
  · rintro defect ⟨front, p, back, hsplit, hfront, hp, rfl⟩
    exact herror p (firstBeyond_eq_some_iff.2 ⟨front, back, hsplit, hfront, hp⟩)

/-- Taking rows fails just for a position that is no row, and otherwise gives one row for each
position, which is the row that stands there. -/
def Table.TakesRows (t : Table) (positions : List Nat) : Prop :=
  Admits (∀ p ∈ positions, p < t.numRows) (BeyondRows positions t.numRows)
    (fun t' => t'.numRows = positions.length ∧ ∀ i, t'.row? i = positions[i]?.bind t.row?) id
    (t.take positions)

/-- Taking values fails just for a position that is no row, and otherwise gives one row for each
position, which is the row that stands there. -/
def Series.TakesRows (s : Series) (positions : List Nat) : Prop :=
  Admits (∀ p ∈ positions, p < s.length) (BeyondRows positions s.length)
    (fun s' => s'.length = positions.length ∧ ∀ i, s'.row? i = positions[i]?.bind s.row?) id
    (s.take positions)

theorem Table.takesRows (t : Table) (positions : List Nat) : t.TakesRows positions :=
  .of_positions (fun h => ⟨_, take_of_lt h, length_pick h, row?_select h⟩)
    fun _ => take_of_firstBeyond

theorem Series.takesRows (s : Series) (positions : List Nat) : s.TakesRows positions :=
  .of_positions (fun h => ⟨_, take_of_lt h, length_pick h, row?_select h⟩)
    fun _ => take_of_firstBeyond

/-! ## The invariant -/

/-- Whatever is obtained has the shape of a table or a series, taking rows from it stays inside all
of its lists, and columns are accepted with an index, alone or from text, just in that shape. -/
theorem obtained_representation :
    (∀ sheet, Obtained (.table sheet) → sheet.Shaped ∧
      ∃ t : Table, t.sheet = sheet ∧ ∀ positions,
        sheet.take positions = some ((t.take positions).map Table.sheet) ∧
          t.TakesRows positions) ∧
    (∀ strip, Obtained (.series strip) → strip.Shaped ∧
      ∃ s : Series, s.strip = strip ∧ ∀ positions,
        strip.take positions = some ((s.take positions).map Series.strip) ∧
          s.TakesRows positions) ∧
    (∀ index columns, Sheet.Admitted ⟨index, columns⟩ id (Table.withIndex index columns)) ∧
    (∀ columns : List Column, Sheet.Admitted
      ⟨List.range (columns.head?.elim 0 Column.length), columns⟩ id (Table.ofColumns columns)) ∧
    (∀ reals text,
      (∀ sheet, Spells (Sheet.ofTree reals) text sheet →
        sheet.Admitted (.refused []) (decodeText (Table.ofTree reals) text)) ∧
      ∀ t, decodeText (Table.ofTree reals) text = .ok t →
        Spells (Sheet.ofTree reals) text t.sheet) ∧
    ∀ reals text,
      (∀ strip, Spells (Strip.ofTree reals) text strip →
        strip.Admitted (.refused []) (decodeText (Series.ofTree reals) text)) ∧
      ∀ s, decodeText (Series.ofTree reals) text = .ok s →
        Spells (Strip.ofTree reals) text s.strip := by
  refine ⟨fun sheet h => ?_, fun strip h => ?_, fun index columns => ?_, fun columns => ?_,
    fun reals text => ⟨fun sheet h => ?_, fun t ht => ?_⟩,
    fun reals text => ⟨fun strip h => ?_, fun s hs => ?_⟩⟩
  · cases h.held with
    | table t => exact ⟨t.shaped_sheet, t, rfl, fun ps => ⟨t.take_sheet ps, t.takesRows ps⟩⟩
  · cases h.held with
    | series s => exact ⟨s.shaped_strip, s, rfl, fun ps => ⟨s.take_strip ps, s.takesRows ps⟩⟩
  · exact Sheet.admitted_withIndex ⟨index, columns⟩
  · exact Sheet.admitted_withIndex ⟨_, columns⟩
  · exact Sheet.admitted_decodeText h
  · exact Table.spells_of_decodeText ht
  · exact Strip.admitted_decodeText h
  · exact Series.spells_of_decodeText hs

/-- Two of five rows are taken, a column is split off, and it is turned into a table: two rows are
left, so that a third one cannot be taken. -/
theorem obtained_petKinds :
    ∃ sheet, Obtained (.table sheet) ∧ sheet.index = [4, 1] ∧ sheet.Shaped ∧
      sheet.take [1, 0, 2, 3] = some (.error (.positionOutOfRange 2 2)) := by
  have hpets : Obtained (.table Split.pets.sheet) :=
    @Obtained.withIndex Split.pets.index Split.pets.columns _ rfl
  have hrows : Obtained (.table ⟨[4, 1], _⟩) := @Obtained.rows _ _ [4, 1] hpets rfl
  have hkind := @Obtained.splitOff _ _ _ "kind" hrows rfl
  have hsheet := Obtained.toSheet hkind
  exact ⟨_, hsheet, rfl, (obtained_representation.1 _ hsheet).1, rfl⟩

end Tableflow
