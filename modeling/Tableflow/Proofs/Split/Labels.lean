import Tableflow.Proofs.Dictionary
import Tableflow.Proofs.Split.Partition
import Tableflow.Proofs.Table.Picking

/-!
# Splitting off the labels

A column that is split off leaves the other columns in their order, and both parts keep the index of
the table (`Table.SplitsInto`). Picking rows does the same to every column, so rows can be picked
before or after a column is split off (`Table.SplitsInto.select`), and a series is picked from like
the table of its one column (`Series.take_toTable`). So a table and its labels can be split into
training and test rows with the labels split off last (`Split.ofLabeled`).

The main statement is `splitColumn_commutes`.
-/

namespace Tableflow

/-! ## The parts of a table -/

/-- A table falls into a column of a name and the other columns, before and behind it, which both
have its index. -/
structure Table.SplitsInto (t : Table) (name : String) (rest : Table) (label : Series) : Prop where
  columns : ∃ front back, t.columns = front ++ label.column :: back ∧ rest.columns = front ++ back
  named : label.name = name
  index_rest : rest.index = t.index
  index_label : label.index = t.index

namespace Table

variable {t rest : Table} {label : Series} {name : String} {c : Column}

/-- Among columns with distinct names the others than one are those before and behind it. -/
theorem filter_others {front back : List Column}
    (h : ((front ++ c :: back).map (·.name)).Nodup) :
    (front ++ c :: back).filter (fun d => d.name ≠ c.name) = front ++ back := by
  rw [List.map_append, List.map_cons, List.nodup_append, List.nodup_cons] at h
  obtain ⟨-, ⟨hback, -⟩, hfront⟩ := h
  have hkept : ∀ d ∈ front ++ back, d.name ≠ c.name := by
    intro d hd
    rcases List.mem_append.1 hd with hd | hd
    · exact hfront _ (List.mem_map_of_mem hd) _ List.mem_cons_self
    · exact fun heq => hback (heq ▸ List.mem_map_of_mem hd)
  rw [List.filter_append, List.filter_cons_of_neg (by simp), ← List.filter_append,
    List.filter_eq_self]
  simpa using hkept

theorem splitColumn_of_none (h : t.column? name = none) :
    t.splitColumn name = .error (.noColumn name) := by
  rw [splitColumn]
  split
  · rfl
  · next c hc =>
    rw [h] at hc
    cases hc

theorem splitColumn_of_some (h : t.column? name = some c) :
    ∃ rest label, t.splitColumn name = .ok (rest, label) ∧ t.SplitsInto name rest label := by
  obtain ⟨hc, hname⟩ := (find?_name_eq_some_iff t.names_nodup).1 h
  obtain ⟨front, back, hsplit⟩ := List.append_of_mem hc
  rw [splitColumn]
  split
  · next hnone =>
    rw [h] at hnone
    cases hnone
  · next d hd =>
    obtain rfl := Option.some.inj (h.symm.trans hd)
    refine ⟨_, _, rfl, ⟨front, back, hsplit, ?_⟩, hname, rfl, rfl⟩
    have hnodup := t.names_nodup
    rw [hsplit] at hnodup
    simp only [hsplit, ← hname]
    exact filter_others hnodup

/-- A table has no column of a name just if the name is not among those of its columns. -/
theorem column?_eq_none_iff : t.column? name = none ↔ name ∉ t.names := by
  simp [column?, names]

/-- A column can be split off just if there is one of its name. -/
theorem exists_splitColumn_iff (t : Table) (name : String) :
    (∃ parts, t.splitColumn name = .ok parts) ↔ name ∈ t.names := by
  cases hcolumn : t.column? name with
  | none =>
    rw [splitColumn_of_none hcolumn]
    exact iff_of_false (fun ⟨_, h⟩ => nomatch h) (column?_eq_none_iff.1 hcolumn)
  | some c =>
    obtain ⟨rest, label, hok, -⟩ := splitColumn_of_some hcolumn
    obtain ⟨hc, rfl⟩ := (find?_name_eq_some_iff t.names_nodup).1 hcolumn
    exact iff_of_true ⟨_, hok⟩ (List.mem_map_of_mem hc)

namespace SplitsInto

theorem column?_eq (h : t.SplitsInto name rest label) : t.column? name = some label.column := by
  obtain ⟨front, back, hsplit, -⟩ := h.columns
  refine (find?_name_eq_some_iff t.names_nodup).2 ⟨?_, h.named⟩
  rw [hsplit]
  exact List.mem_append_right _ List.mem_cons_self

theorem columns_rest (h : t.SplitsInto name rest label) :
    rest.columns = t.columns.filter fun c => c.name ≠ name := by
  obtain ⟨front, back, hsplit, hrest⟩ := h.columns
  have hnodup := t.names_nodup
  have hname : label.column.name = name := h.named
  rw [hsplit] at hnodup
  rw [hrest, hsplit, ← hname, filter_others hnodup]

/-- The parts of a table are told by the name. -/
theorem unique {rest' : Table} {label' : Series} (h : t.SplitsInto name rest label)
    (h' : t.SplitsInto name rest' label') : rest = rest' ∧ label = label' := by
  have hcolumn : label.column = label'.column :=
    Option.some.inj (h.column?_eq.symm.trans h'.column?_eq)
  constructor
  · exact Table.ext (h.index_rest.trans h'.index_rest.symm)
      (h.columns_rest.trans h'.columns_rest.symm)
  · exact Series.ext (h.index_label.trans h'.index_label.symm) hcolumn

end SplitsInto

theorem splitColumn_eq_ok_iff : t.splitColumn name = .ok (rest, label) ↔
    t.SplitsInto name rest label := by
  constructor
  · intro h
    cases hcolumn : t.column? name with
    | none =>
      rw [splitColumn_of_none hcolumn] at h
      cases h
    | some c =>
      obtain ⟨rest', label', hok, hinto⟩ := splitColumn_of_some hcolumn
      obtain ⟨rfl, rfl⟩ := Prod.mk.inj (Except.ok.inj (hok.symm.trans h))
      exact hinto
  · intro h
    obtain ⟨rest', label', hok, hinto⟩ := splitColumn_of_some h.column?_eq
    obtain ⟨rfl, rfl⟩ := h.unique hinto
    exact hok

theorem splitColumn_eq_error_iff {defect : TableDefect} :
    t.splitColumn name = .error defect ↔ name ∉ t.names ∧ defect = .noColumn name := by
  rw [← column?_eq_none_iff]
  cases hcolumn : t.column? name with
  | none =>
    rw [splitColumn_of_none hcolumn, Except.error.injEq, and_iff_right rfl, eq_comm]
  | some c =>
    obtain ⟨rest, label, hok, -⟩ := splitColumn_of_some hcolumn
    rw [hok]
    exact iff_of_false (fun h => nomatch h) fun h => nomatch h.1

/-! ## Picking rows of the parts -/

variable {positions : List Nat}

@[simp] theorem names_select (h : ∀ p ∈ positions, p < t.numRows) :
    (t.select positions h).names = t.names := by
  simp [names, select, Column.take]

theorem SplitsInto.numRows_eq (h : t.SplitsInto name rest label) : rest.numRows = t.numRows :=
  congrArg List.length h.index_rest

theorem SplitsInto.length_eq (h : t.SplitsInto name rest label) : label.length = t.numRows :=
  congrArg List.length h.index_label

/-- The parts of picked rows are the rows that are picked of the parts. -/
theorem SplitsInto.select (h : t.SplitsInto name rest label) (ht : ∀ p ∈ positions, p < t.numRows)
    (hrest : ∀ p ∈ positions, p < rest.numRows) (hlabel : ∀ p ∈ positions, p < label.length) :
    (t.select positions ht).SplitsInto name (rest.select positions hrest)
      (label.select positions hlabel) := by
  obtain ⟨front, back, hsplit, hcolumns⟩ := h.columns
  refine ⟨⟨front.map (·.take positions), back.map (·.take positions), ?_, ?_⟩, h.named, ?_, ?_⟩
  · simp [Table.select, Series.select, hsplit]
  · simp [Table.select, hcolumns]
  · simp [Table.select, h.index_rest]
  · simp [Table.select, Series.select, h.index_label]

/-- Picking rows of a table that falls into parts picks them of the parts. -/
theorem SplitsInto.exists_take (h : t.SplitsInto name rest label)
    (hlt : ∀ p ∈ positions, p < t.numRows) :
    ∃ picked restPicked labelPicked, t.take positions = .ok picked ∧
      rest.take positions = .ok restPicked ∧ label.take positions = .ok labelPicked ∧
      picked.splitColumn name = .ok (restPicked, labelPicked) := by
  have hrest : ∀ p ∈ positions, p < rest.numRows := by rwa [h.numRows_eq]
  have hlabel : ∀ p ∈ positions, p < label.length := by rwa [h.length_eq]
  exact ⟨_, _, _, take_of_lt hlt, take_of_lt hrest, Series.take_of_lt hlabel,
    splitColumn_eq_ok_iff.2 (h.select hlt hrest hlabel)⟩

end Table

/-- A series is picked from like the table of its one column. -/
theorem Series.take_toTable (s : Series) (positions : List Nat) :
    s.toTable.take positions = (s.take positions).map Series.toTable := by
  cases hbeyond : firstBeyond positions s.length with
  | some p =>
    rw [take_of_firstBeyond hbeyond]
    exact Table.take_of_firstBeyond hbeyond
  | none =>
    have hlt := firstBeyond_eq_none_iff.1 hbeyond
    rw [take_of_lt hlt]
    exact Table.take_of_lt (t := s.toTable) hlt

/-! ## Splitting the labels off last -/

namespace Split

/-- The rows of a table at positions of test and training rows, with a column split off each. -/
def ofLabeled (t : Table) (name : String) (test train : List Nat) : Except TableDefect Split := do
  let (xTest, yTest) ← (← t.take test).splitColumn name
  let (xTrain, yTrain) ← (← t.take train).splitColumn name
  return { xTrain, xTest, yTrain, yTest }

theorem ofLabeled_of_takenAt {t rest : Table} {label : Series} {name : String}
    {test train : List Nat} {s : Split} (hinto : t.SplitsInto name rest label)
    (h : s.TakenAt rest label test train) : ofLabeled t name test train = .ok s := by
  have htaken : ∀ {positions x y}, rest.take positions = .ok x → label.take positions = .ok y →
      ∃ picked, t.take positions = .ok picked ∧ picked.splitColumn name = .ok (x, y) := by
    intro positions x y hx hy
    obtain ⟨hlt, -⟩ := Table.exists_of_take_eq_ok hx
    rw [hinto.numRows_eq] at hlt
    obtain ⟨picked, x', y', hpicked, hx', hy', hsplit⟩ := hinto.exists_take hlt
    obtain rfl := Except.ok.inj (hx'.symm.trans hx)
    obtain rfl := Except.ok.inj (hy'.symm.trans hy)
    exact ⟨picked, hpicked, hsplit⟩
  obtain ⟨tTest, htest, hsplitTest⟩ := htaken h.xTest h.yTest
  obtain ⟨tTrain, htrain, hsplitTrain⟩ := htaken h.xTrain h.yTrain
  simp only [ofLabeled, htest, htrain, bind, Except.bind, hsplitTest, hsplitTrain]
  rfl

/-- Rows are picked of a table before or after a column is split off, and of a series before or after
it is turned into a table, with the same result. So the parts of a split of features and labels are
left when the labels are split off the test rows and the training rows of the table of both. -/
theorem splitColumn_commutes {σ : Type u} (next : σ → UInt32 × σ) (seeded : UInt64 → σ) :
    (∀ (t : Table) (name : String),
      ((∃ parts, t.splitColumn name = .ok parts) ↔ name ∈ t.names) ∧
        (∀ rest label, t.splitColumn name = .ok (rest, label) → t.SplitsInto name rest label) ∧
        ∀ positions : List Nat, (∀ p ∈ positions, p < t.numRows) →
          ∃ picked, t.take positions = .ok picked ∧
            (∀ defect, picked.splitColumn name = .error defect ↔
              t.splitColumn name = .error defect) ∧
            ∀ rest label, t.splitColumn name = .ok (rest, label) →
              ∃ restPicked labelPicked, rest.take positions = .ok restPicked ∧
                label.take positions = .ok labelPicked ∧
                picked.splitColumn name = .ok (restPicked, labelPicked)) ∧
    (∀ (s : Series) (positions : List Nat),
      s.toTable.take positions = (s.take positions).map Series.toTable) ∧
    ∀ (t : Table) (name : String) (rest : Table) (label : Series),
      t.splitColumn name = .ok (rest, label) → ∀ config s,
        ofSource next (seeded config.seed) rest label config = .ok s →
          let test := testOf next seeded config t.numRows
          let train := trainOf next seeded config t.numRows
          Partition config t.numRows test train ∧ s.TakenAt rest label test train ∧
            ofLabeled t name test train = .ok s := by
  refine ⟨fun t name => ⟨t.exists_splitColumn_iff name, fun rest label => ?_, fun positions hlt => ?_⟩,
    Series.take_toTable, fun t name rest label h config s hs => ?_⟩
  · exact Table.splitColumn_eq_ok_iff.1
  · refine ⟨_, Table.take_of_lt hlt, fun defect => ?_, fun rest label h => ?_⟩
    · rw [Table.splitColumn_eq_error_iff, Table.splitColumn_eq_error_iff, Table.names_select]
    · obtain ⟨picked, restPicked, labelPicked, hpicked, hrest, hlabel, hsplit⟩ :=
        (Table.splitColumn_eq_ok_iff.1 h).exists_take hlt
      obtain rfl := Except.ok.inj ((Table.take_of_lt hlt).symm.trans hpicked)
      exact ⟨restPicked, labelPicked, hrest, hlabel, hsplit⟩
  · have hinto := Table.splitColumn_eq_ok_iff.1 h
    obtain ⟨hpartition, htaken⟩ := takenAt_of_ofSource_eq_ok next seeded hs
    rw [hinto.numRows_eq] at hpartition htaken
    exact ⟨hpartition, htaken, ofLabeled_of_takenAt hinto htaken⟩

/-- The kind of five pets is split off before and after rows are picked, one of them twice, and
before and after the one in the middle is held out. -/
theorem pets_kind_last :
    ∃ rest label restPicked labelPicked s, pets.splitColumn "kind" = .ok (rest, label) ∧
      rest.take [4, 1, 1] = .ok restPicked ∧ label.take [4, 1, 1] = .ok labelPicked ∧
      (pets.take [4, 1, 1] >>= (·.splitColumn "kind")) = .ok (restPicked, labelPicked) ∧
      ofSource multiples 1 rest label .default = .ok s ∧ s.xTest.index = [2] ∧
      ∃ test train, Partition .default 5 test train ∧ ofLabeled pets "kind" test train = .ok s := by
  obtain ⟨rest, label, hparts, hindex⟩ : ∃ rest label, pets.splitColumn "kind" = .ok (rest, label) ∧
      (ofSource multiples 1 rest label .default).toOption.map (·.xTest.index) = some [2] :=
    ⟨_, _, rfl, by decide +kernel⟩
  obtain ⟨s, hs, hs_index⟩ := exists_of_toOption_map hindex
  obtain ⟨hcolumns, -, hsplits⟩ := splitColumn_commutes multiples fun _ => 1
  obtain ⟨-, -, hpicks⟩ := hcolumns pets "kind"
  obtain ⟨picked, hpicked, -, hparts_picked⟩ := hpicks [4, 1, 1] (by decide)
  obtain ⟨restPicked, labelPicked, hrest, hlabel, hboth⟩ := hparts_picked rest label hparts
  obtain ⟨hpartition, -, hlabeled⟩ := hsplits pets "kind" rest label hparts .default s hs
  refine ⟨rest, label, restPicked, labelPicked, s, hparts, hrest, hlabel, ?_, hs, hs_index, _, _,
    hpartition, hlabeled⟩
  rw [hpicked, ok_bind, hboth]

end Split

end Tableflow
