import Tableflow.Proofs.Json.Decoding
import Tableflow.Proofs.Table.Checks
import Tableflow.Table.SplitJson

/-!
# Tables that come back from their texts

A table is written member by member and is read through records that are checked like columns of any
origin. What comes back is the table in which the numbers that are not finite are missing cells
(`Table.finite`), since these and missing cells are both written as null; the ids of the rows, the
order, the names and the types of the columns and all other cells are the same. Series and splits
come back alike.

That an integer or a text is read as it was written is proved; of a finite number it is assumed of
those that the table holds (`ReadsBack`), because the reader of numbers is a parameter. The main
statement is `roundTrip`.
-/

namespace Tableflow

open Json (Value Tree Reals Decoded decodeText exactReal)

/-! ## Numbers that are not finite -/

theorem map_eq_self_iff {α : Type} {f : α → α} {items : List α} :
    items.map f = items ↔ ∀ a ∈ items, f a = a := by
  simpa using @List.map_inj_left _ _ items f id

namespace Cells

/-- The cells with every number that is not finite missing. -/
def finite : Cells → Cells
  | .numeric values => .numeric (values.map (·.filter Double.isFinite))
  | .categorical values => .categorical values

/-- The numbers in the cells. -/
def numbers : Cells → List Double
  | .numeric values => values.filterMap id
  | .categorical _ => []

theorem length_finite (cells : Cells) : cells.finite.length = cells.length := by
  cases cells <;> simp [finite, length]

theorem mem_numbers_numeric {values : List (Option Double)} {x : Double} :
    x ∈ (Cells.numeric values).numbers ↔ some x ∈ values := by
  simp [numbers]

theorem finite_eq_self_iff {cells : Cells} :
    cells.finite = cells ↔ ∀ x ∈ cells.numbers, x.isFinite := by
  cases cells with
  | categorical values => simp [finite, numbers]
  | numeric values =>
    rw [finite, Cells.numeric.injEq, map_eq_self_iff]
    simp only [mem_numbers_numeric]
    constructor
    · intro h x hx
      exact (Option.filter_eq_some_iff.1 (h _ hx)).2
    · rintro h (_ | x) hvalue
      · rfl
      · exact Option.filter_eq_some_iff.2 ⟨rfl, h x hvalue⟩

end Cells

namespace Column

/-- The column with every number that is not finite missing. -/
def finite (c : Column) : Column := ⟨c.name, c.cells.finite⟩

theorem length_finite (c : Column) : c.finite.length = c.length := c.cells.length_finite

theorem finite_eq_self_iff {c : Column} :
    c.finite = c ↔ ∀ x ∈ c.cells.numbers, x.isFinite := by
  rw [← Cells.finite_eq_self_iff]
  obtain ⟨name, cells⟩ := c
  simp [finite]

end Column

namespace Table

/-- The table with every number that is not finite missing. -/
def finite (t : Table) : Table where
  index := t.index
  columns := t.columns.map Column.finite
  names_nodup := by
    rw [List.map_map]
    exact t.names_nodup
  length_columns := by
    intro c hc
    obtain ⟨d, hd, rfl⟩ := List.mem_map.1 hc
    exact d.length_finite.trans (t.length_columns d hd)

/-- The columns of a table pass the checks. -/
theorem withIndex_eq_ok (t : Table) : withIndex t.index t.columns = .ok t := by
  obtain ⟨t', hwithIndex, hsheet⟩ := t.shaped_sheet.exists_withIndex_eq_ok
  obtain ⟨index, columns, _, _⟩ := t
  cases hsheet
  exact hwithIndex

/-- The numbers in the table. -/
def numbers (t : Table) : List Double := t.columns.flatMap (·.cells.numbers)

theorem finite_eq_self_iff (t : Table) : t.finite = t ↔ ∀ x ∈ t.numbers, x.isFinite := by
  have hcolumns : t.finite = t ↔ t.columns.map Column.finite = t.columns := by
    obtain ⟨index, columns, _, _⟩ := t
    simp [finite]
  rw [hcolumns, map_eq_self_iff]
  simp only [Column.finite_eq_self_iff, numbers, List.mem_flatMap]
  constructor
  · rintro h x ⟨c, hc, hx⟩
    exact h c hc x hx
  · exact fun h c hc x hx => h x ⟨c, hc, hx⟩

end Table

namespace Series

/-- The series with every number that is not finite missing. -/
def finite (s : Series) : Series where
  index := s.index
  column := s.column.finite
  length_column := s.column.length_finite.trans s.length_column

/-- The numbers in the series. -/
def numbers (s : Series) : List Double := s.column.cells.numbers

theorem finite_eq_self_iff (s : Series) : s.finite = s ↔ ∀ x ∈ s.numbers, x.isFinite := by
  rw [numbers, ← Column.finite_eq_self_iff]
  obtain ⟨index, column, _⟩ := s
  simp [finite]

end Series

namespace Split

/-- The split with every number that is not finite missing. -/
def finite (s : Split) : Split := ⟨s.xTrain.finite, s.xTest.finite, s.yTrain.finite, s.yTest.finite⟩

/-- The numbers in the parts. -/
def numbers (s : Split) : List Double :=
  s.xTrain.numbers ++ s.xTest.numbers ++ s.yTrain.numbers ++ s.yTest.numbers

/-- The row ids of the parts. -/
def ids (s : Split) : List Nat :=
  s.xTrain.index ++ s.xTest.index ++ s.yTrain.index ++ s.yTest.index

theorem finite_eq_self_iff (s : Split) : s.finite = s ↔ ∀ x ∈ s.numbers, x.isFinite := by
  obtain ⟨xTrain, xTest, yTrain, yTest⟩ := s
  simp only [finite, numbers, List.forall_mem_append, ← Table.finite_eq_self_iff,
    ← Series.finite_eq_self_iff, Split.mk.injEq, and_assoc]

end Split

/-! ## Writing -/

theorem plain_optional_real (value : Option Double) :
    (Value.optional .real value).plain = Value.optional .real (value.filter Double.isFinite) := by
  cases value with
  | none => rfl
  | some x => by_cases h : x.isFinite <;> simp [Value.optional, Value.plain, Option.filter, h]

theorem plain_optional_string (value : Option String) :
    (Value.optional .string value).plain = Value.optional .string value := by
  cases value <;> rfl

theorem plain_indexJson (index : List Nat) : (indexJson index).plain = indexJson index := by
  rw [indexJson, Value.plain, Value.plains_eq_map, List.map_map]
  rfl

theorem Cells.toJson_finite (cells : Cells) : cells.finite.toJson = cells.toJson.plain := by
  cases cells with
  | numeric values =>
    simp [finite, toJson, Value.plain, Value.plainMembers, Value.plains_eq_map,
      plain_optional_real]
  | categorical values =>
    simp [finite, toJson, Value.plain, Value.plainMembers, Value.plains_eq_map,
      plain_optional_string]

theorem Column.toJson_finite (c : Column) : c.finite.toJson = c.toJson.plain := by
  simp [finite, toJson, Value.plain, Value.plainMembers, Cells.toJson_finite]

theorem Table.toJson_finite (t : Table) : t.finite.toJson = t.toJson.plain := by
  simp [finite, toJson, Value.plain, Value.plainMembers, Value.plains_eq_map, plain_indexJson,
    Column.toJson_finite]

theorem Series.toJson_finite (s : Series) : s.finite.toJson = s.toJson.plain := by
  simp [finite, toJson, Value.plain, Value.plainMembers, plain_indexJson, Column.toJson_finite]

theorem Split.toJson_finite (s : Split) : s.finite.toJson = s.toJson.plain := by
  simp [finite, toJson, Value.plain, Value.plainMembers, Table.toJson_finite,
    Series.toJson_finite]

/-! ## Reading -/

/-- The ids are words, and the finite numbers are read as they were written. -/
structure ReadsBack (reals : Reals) (ids : List Nat) (numbers : List Double) : Prop where
  ids : ∀ id ∈ ids, id < Json.wordLimit
  numbers : ∀ x ∈ numbers, x.isFinite →
    Spells (Tree.asReal reals) (Value.real x).compact x

namespace ReadsBack

variable {reals : Reals} {ids ids' : List Nat} {numbers numbers' : List Double}

theorem mono (h : ReadsBack reals ids numbers) (hids : ids' ⊆ ids)
    (hnumbers : numbers' ⊆ numbers) : ReadsBack reals ids' numbers' :=
  ⟨fun n hn => h.ids n (hids hn), fun x hx => h.numbers x (hnumbers hx)⟩

theorem append_iff : ReadsBack reals (ids ++ ids') (numbers ++ numbers') ↔
    ReadsBack reals ids numbers ∧ ReadsBack reals ids' numbers' := by
  constructor
  · rintro ⟨hids, hnumbers⟩
    rw [List.forall_mem_append] at hids hnumbers
    exact ⟨⟨hids.1, hnumbers.1⟩, ⟨hids.2, hnumbers.2⟩⟩
  · rintro ⟨h, h'⟩
    exact ⟨List.forall_mem_append.2 ⟨h.ids, h'.ids⟩,
      List.forall_mem_append.2 ⟨h.numbers, h'.numbers⟩⟩

theorem asReal_tree (h : ReadsBack reals ids numbers) {x : Double} (hx : x ∈ numbers)
    (hfinite : x.isFinite) : Tree.asReal reals (Value.real x).tree = some x := by
  have hread := (spells_iff.1 (h.numbers x hx hfinite)).1
  rwa [Tree.read_compact] at hread

theorem indexOfTree_tree (h : ReadsBack reals ids numbers) :
    indexOfTree (indexJson ids).tree = some ids := by
  have hlist : Tree.asList Tree.asNatural (indexJson ids).tree = some (ids.map id) :=
    Tree.asList_tree fun n hn => Tree.asNatural_tree (h.ids n hn)
  rwa [List.map_id] at hlist

/-- The cells of a column are read, without the numbers that are not finite. -/
theorem ofTree_cells {cells : Cells} (h : ReadsBack reals ids cells.numbers) :
    Cells.ofTree reals cells.toJson.tree = some cells.finite := by
  cases cells with
  | numeric values =>
    have hlist : Tree.asList (Tree.asOptional (Tree.asReal reals))
        (Value.array (values.map (Value.optional .real))).tree =
          some (values.map (·.filter Double.isFinite)) :=
      Tree.asList_tree fun value hvalue => Tree.asOptional_real_tree fun x hx =>
        h.asReal_tree (Cells.mem_numbers_numeric.2 (hx ▸ hvalue))
    rw [Cells.toJson, Cells.ofTree, Tree.readChoice_tree (by decide), Cells.ofContent, if_pos rfl,
      hlist]
    rfl
  | categorical values =>
    have hlist : Tree.asList (Tree.asOptional Tree.asText)
        (Value.array (values.map (Value.optional .string))).tree = some (values.map id) :=
      Tree.asList_tree fun value _ => Tree.asOptional_string_tree value
    rw [Cells.toJson, Cells.ofTree, Tree.readChoice_tree (by decide), Cells.ofContent,
      if_neg (by decide), if_pos rfl, hlist, List.map_id]
    rfl

theorem ofTree_column {c : Column} (h : ReadsBack reals ids c.cells.numbers) :
    Column.ofTree reals c.toJson.tree = some c.finite := by
  simp only [Column.toJson, Column.ofTree, Tree.required_first (show "name" ≠ "data" by decide),
    Tree.required_second (show "name" ≠ "data" by decide), h.ofTree_cells]
  rfl

theorem ofTree_sheet {t : Table} (h : ReadsBack reals t.index t.numbers) :
    Sheet.ofTree reals t.toJson.tree = some t.finite.sheet := by
  have hcolumns : Tree.asList (Column.ofTree reals)
      (Value.array (t.columns.map Column.toJson)).tree = some (t.columns.map Column.finite) :=
    Tree.asList_tree fun c hc => (h.mono (List.Subset.refl _)
      fun x hx => List.mem_flatMap.2 ⟨c, hc, hx⟩).ofTree_column
  simp only [Table.toJson, Sheet.ofTree,
    Tree.required_first (show "index" ≠ "columns" by decide),
    Tree.required_second (show "index" ≠ "columns" by decide), h.indexOfTree_tree, hcolumns]
  rfl

theorem ofTree_strip {s : Series} (h : ReadsBack reals s.index s.numbers) :
    Strip.ofTree reals s.toJson.tree = some s.finite.strip := by
  simp only [Series.toJson, Strip.ofTree, Tree.required_first (show "index" ≠ "column" by decide),
    Tree.required_second (show "index" ≠ "column" by decide), h.indexOfTree_tree,
    h.ofTree_column]
  rfl

/-- A table is read and passes its checks. -/
theorem ofTree_table {t : Table} (h : ReadsBack reals t.index t.numbers) :
    Table.ofTree reals t.toJson.tree = .ok t.finite := by
  rw [Table.decodesBy_ofTree, h.ofTree_sheet]
  exact congrArg Decoded.checked t.finite.withIndex_eq_ok

/-- A series is read and passes its check. -/
theorem ofTree_series {s : Series} (h : ReadsBack reals s.index s.numbers) :
    Series.ofTree reals s.toJson.tree = .ok s.finite := by
  rw [Series.decodesBy_ofTree, h.ofTree_strip]
  exact congrArg Decoded.checked (dif_pos s.finite.length_column)

/-- A split is read part by part. -/
theorem ofTree_split {s : Split} (h : ReadsBack reals s.ids s.numbers) :
    Split.ofTree reals s.toJson.tree = .ok s.finite := by
  have hrecord := Tree.record_tree (show ["x_train", "x_test", "y_train", "y_test"] =
    [("x_train", s.xTrain.toJson), ("x_test", s.xTest.toJson), ("y_train", s.yTrain.toJson),
      ("y_test", s.yTest.toJson)].map Prod.fst from rfl) (by decide) false
  rw [Split.ids, Split.numbers, append_iff, append_iff, append_iff] at h
  obtain ⟨⟨⟨hxTrain, hxTest⟩, hyTrain⟩, hyTest⟩ := h
  rw [Split.toJson, Split.ofTree, hrecord]
  simp only [Tree.numbered, List.mapIdx_cons, List.mapIdx_nil, List.foldlM_cons, Split.addPart,
    hxTrain.ofTree_table, hxTest.ofTree_table, hyTrain.ofTree_series, hyTest.ofTree_series]
  rfl

end ReadsBack

/-! ## There and back -/

/-- What a value comes back as from a text of it, whichever way that was written. -/
structure ComesBack {α : Type} (decode : Tree → Decoded TableDefect α) (toJson : α → Value)
    (finite : α → α) (numbers : List Double) (write : Value → String) (a : α) : Prop where
  /-- The text is accepted, and every number that is not finite has become a missing cell. -/
  decoded : decodeText decode (write (toJson a)) = .ok (finite a)
  /-- Nothing has changed just if every number is finite. -/
  unchanged : decodeText decode (write (toJson a)) = .ok a ↔ ∀ x ∈ numbers, x.isFinite
  /-- What comes back has the same text. -/
  rewritten : ∀ b, decodeText decode (write (toJson a)) = .ok b →
    write (toJson b) = write (toJson a)

theorem ComesBack.of_tree {α : Type} {decode : Tree → Decoded TableDefect α} {toJson : α → Value}
    {finite : α → α} {numbers : List Double} {a : α}
    (hdecode : decode (toJson a).tree = .ok (finite a))
    (hsame : finite a = a ↔ ∀ x ∈ numbers, x.isFinite)
    (hplain : toJson (finite a) = (toJson a).plain) :
    ∀ write ∈ [Value.compact, Value.pretty],
      ComesBack decode toJson finite numbers write a := by
  intro write hwrite
  -- either text is read as the tree of the value, and neither tells what is null from what is not
  -- finite
  obtain ⟨hread, hplainText⟩ : (∀ v, Tree.read (write v).toList = (v.tree, some [])) ∧
      ∀ v, write v.plain = write v := by
    rcases List.mem_pair.1 hwrite with rfl | rfl
    · exact ⟨Tree.read_compact, Value.compact_plain⟩
    · exact ⟨Tree.read_pretty, Value.pretty_plain⟩
  have hdecoded : decodeText decode (write (toJson a)) = .ok (finite a) := by
    rw [Json.decodeText_eq_ok_iff, hread]
    exact ⟨hdecode, rfl⟩
  refine ⟨hdecoded, ?_, fun b hb => ?_⟩
  · rw [hdecoded, Except.ok.injEq, hsame]
  · rw [hdecoded, Except.ok.injEq] at hb
    rw [← hb, hplain, hplainText]

/-- Tables, series and splits come back from their texts. -/
theorem roundTrip (reals : Reals) :
    (∀ t : Table, ReadsBack reals t.index t.numbers → ∀ write ∈ [Value.compact, Value.pretty],
      ComesBack (Table.ofTree reals) Table.toJson Table.finite t.numbers write t) ∧
    (∀ s : Series, ReadsBack reals s.index s.numbers → ∀ write ∈ [Value.compact, Value.pretty],
      ComesBack (Series.ofTree reals) Series.toJson Series.finite s.numbers write s) ∧
    ∀ s : Split, ReadsBack reals s.ids s.numbers → ∀ write ∈ [Value.compact, Value.pretty],
      ComesBack (Split.ofTree reals) Split.toJson Split.finite s.numbers write s :=
  ⟨fun t h => .of_tree h.ofTree_table t.finite_eq_self_iff t.toJson_finite,
    fun s h => .of_tree h.ofTree_series s.finite_eq_self_iff s.toJson_finite,
    fun s h => .of_tree h.ofTree_split s.finite_eq_self_iff s.toJson_finite⟩

/-- Training rows with texts that need escapes, numbers that are not finite and missing cells; no
rows are held out. -/
def soundings : Split where
  xTrain :=
    { index := [7, 0, 0xffffffffffffffff, 7]
      columns :=
        [⟨"depth \"ü\"", .numeric
            [some ⟨0xbff8000000000000⟩, some (.infinity true), none, some .two]⟩,
          ⟨"\x01", .categorical [some "", none, some "null\n", some "⚓"]⟩]
      names_nodup := by decide +kernel
      length_columns := by decide }
  xTest := ⟨[], [], by decide, by decide⟩
  yTrain := ⟨[3, 3], ⟨"label", .numeric [some (.nan false), some .negZero]⟩, rfl⟩
  yTest := ⟨[], ⟨"label", .categorical []⟩, rfl⟩

theorem readsBack_soundings : ReadsBack exactReal soundings.ids soundings.numbers where
  ids := by decide
  numbers := by
    have hread : ∀ x ∈ soundings.numbers, x.isFinite →
        Tree.asReal exactReal (Tree.read (Value.real x).compact.toList).1 = some x ∧
          (Tree.read (Value.real x).compact.toList).2.map Json.skipSpace = some [] := by
      decide +kernel
    exact fun x hx hfinite => spells_iff.2 (hread x hx hfinite)

/-- The parts and the whole come back, and the whole has changed. -/
theorem soundings_comesBack :
    decodeText (Table.ofTree exactReal) soundings.xTrain.toJson.compact =
        .ok soundings.xTrain.finite ∧
      decodeText (Series.ofTree exactReal) soundings.yTrain.toJson.compact =
        .ok soundings.yTrain.finite ∧
      decodeText (Split.ofTree exactReal) soundings.toJson.pretty = .ok soundings.finite ∧
      soundings.finite ≠ soundings := by
  obtain ⟨htable, hseries, hsplit⟩ := roundTrip exactReal
  have hparts := readsBack_soundings
  rw [Split.ids, Split.numbers, ReadsBack.append_iff, ReadsBack.append_iff,
    ReadsBack.append_iff] at hparts
  obtain ⟨⟨⟨hxTrain, -⟩, hyTrain⟩, -⟩ := hparts
  exact ⟨(htable _ hxTrain _ (by simp)).decoded, (hseries _ hyTrain _ (by simp)).decoded,
    (hsplit _ readsBack_soundings _ (by simp)).decoded, by decide +kernel⟩

end Tableflow
