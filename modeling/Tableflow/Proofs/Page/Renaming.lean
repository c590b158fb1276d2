import Mathlib.Data.List.Forall2
import Mathlib.Logic.Function.Basic
import Mathlib.SetTheory.Cardinal.Arithmetic
import Tableflow.Proofs.Page.Tables

/-!
# Renaming what a page shows

No text from outside can pass for markup. Renaming the datasets, the features and the most frequent
texts of a comparison (`Renamed`) leaves the marks of its page as they are, since they are told by
which rows have missing cells (`missingFlags_eq_of_renamed`). New names have to be distinct for the
names that there are, which is as good as for all names (`Renamed.exists_injective`). What was
renamed is still all there: the entities of the page read back as the texts that went into it
(`renderHtml_inert`).
-/

namespace Tableflow

/-- The same statistics but for the texts in them; there is a most frequent one on both sides or on
none. -/
inductive FeatureKind.Alike : FeatureKind → FeatureKind → Prop
  | numeric (s : NumericStatistics) : Alike (.numeric s) (.numeric s)
  | categorical (s : CategoricalStatistics) (top : Option String) (frequencies : Dictionary Nat) :
    top.isSome = s.top.isSome → Alike (.categorical s) (.categorical { s with top, frequencies })

theorem FeatureKind.Alike.missing_eq {a b : FeatureKind} (h : a.Alike b) :
    b.missing = a.missing := by
  cases h <;> rfl

namespace Comparison

/-- A feature under a new name and with new texts. -/
structure RenamedFeature (rename : String → String) (f f' : FeatureStatistics) : Prop where
  name : f'.name = rename f.name
  stats : f.stats.Alike f'.stats

/-- The statistics of a dataset under any name, with renamed features. -/
structure RenamedSide (rename : String → String) (d d' : DatasetStatistics) : Prop where
  numRows : d'.numRows = d.numRows
  features : List.Forall₂ (RenamedFeature rename) d.features d'.features

/-- The same comparison but for names and texts; features go by the same new name on both sides. -/
structure Renamed (rename : String → String) (c c' : Comparison) : Prop where
  left : RenamedSide rename c.left c'.left
  right : RenamedSide rename c.right c'.right

/-- The names of the features of both sides. -/
def ownNames (c : Comparison) : List String :=
  c.left.features.map (·.name) ++ c.right.features.map (·.name)

variable {rename : String → String} {c c' : Comparison} {d d' : DatasetStatistics}

/-! ## Distinct new names -/

/-- Distinct new names for some names are part of distinct new names for all. -/
theorem exists_injective_of_injOn {names : List String}
    (h : Set.InjOn rename {name | name ∈ names}) :
    ∃ f : String → String, Function.Injective f ∧ ∀ name ∈ names, f name = rename name := by
  have hlt : Cardinal.mk {name | name ∈ names} < Cardinal.mk String :=
    (Cardinal.lt_aleph0_iff_set_finite.2 names.finite_toSet).trans_le
      (Cardinal.aleph0_le_mk String)
  obtain ⟨f, hf⟩ := Cardinal.extend_function_of_lt
    ⟨fun name => rename name.1, h.injective⟩ hlt ⟨Equiv.refl String⟩
  exact ⟨f, f.injective, fun name hname => hf ⟨name, hname⟩⟩

theorem RenamedSide.congr {f : String → String} (h : RenamedSide rename d d')
    (hf : ∀ name ∈ d.features.map (·.name), f name = rename name) : RenamedSide f d d' := by
  refine ⟨h.numRows, ?_⟩
  have hfeatures := h.features
  generalize d.features = features, d'.features = features' at hfeatures hf ⊢
  induction hfeatures with
  | nil => exact .nil
  | cons hfirst _ ih =>
    obtain ⟨hname, hrest⟩ := List.forall_mem_cons.1 hf
    exact .cons ⟨hfirst.name.trans hname.symm, hfirst.stats⟩ (ih hrest)

theorem Renamed.exists_injective (h : Renamed rename c c')
    (hrename : Set.InjOn rename {name | name ∈ c.ownNames}) :
    ∃ f, Function.Injective f ∧ Renamed f c c' := by
  obtain ⟨f, hinjective, hf⟩ := exists_injective_of_injOn hrename
  obtain ⟨hleft, hright⟩ := List.forall_mem_append.1 hf
  exact ⟨f, hinjective, h.left.congr hleft, h.right.congr hright⟩

/-! ## Renamed features are found in the places of the old ones -/

theorem RenamedFeature.columnType_eq {f f' : FeatureStatistics} (h : RenamedFeature rename f f') :
    f'.columnType = f.columnType := by
  obtain ⟨_, stats⟩ := f
  obtain ⟨_, stats'⟩ := f'
  cases h.stats <;> rfl

theorem RenamedSide.map_name (h : RenamedSide rename d d') :
    d'.features.map (·.name) = (d.features.map (·.name)).map rename := by
  have hnames := h.features
  generalize d.features = features, d'.features = features' at hnames
  induction hnames with
  | nil => rfl
  | cons hfirst _ ih => rw [List.map_cons, List.map_cons, List.map_cons, hfirst.name, ih]

theorem RenamedSide.feature? (hrename : Function.Injective rename) (h : RenamedSide rename d d')
    (name : String) :
    Option.Rel (RenamedFeature rename) (d.feature? name) (d'.feature? (rename name)) := by
  have hfeatures := h.features
  unfold DatasetStatistics.feature?
  generalize d.features = features, d'.features = features' at hfeatures
  induction hfeatures with
  | nil => exact .none
  | @cons f f' _ _ hfirst _ ih =>
    by_cases hname : f.name = name
    · rw [List.find?_cons_of_pos (by simpa using hname),
        List.find?_cons_of_pos (by simp [hfirst.name, hname])]
      exact .some hfirst
    · rw [List.find?_cons_of_neg (by simpa using hname),
        List.find?_cons_of_neg (by simpa [hfirst.name] using hrename.ne hname)]
      exact ih

theorem addName_map (hrename : Function.Injective rename) (names : List String) (name : String) :
    addName (names.map rename) (rename name) = (addName names name).map rename := by
  by_cases h : name ∈ names
  · rw [addName, if_pos (List.mem_map_of_mem h), addName, if_pos h]
  · have hmap : rename name ∉ names.map rename := fun hmem => h (by
      obtain ⟨other, hother, heq⟩ := List.mem_map.1 hmem
      exact hrename heq ▸ hother)
    rw [addName, if_neg hmap, addName, if_neg h, List.map_append, List.map_singleton]

theorem featureNames_eq_of_renamed (hrename : Function.Injective rename)
    (h : Renamed rename c c') : c'.featureNames = c.featureNames.map rename := by
  rw [featureNames, featureNames, h.left.map_name, h.right.map_name]
  generalize c.left.features.map (·.name) = start
  induction c.right.features.map (·.name) generalizing start with
  | nil => rfl
  | cons name rest ih =>
    rw [List.map_cons, List.foldl_cons, addName_map hrename, ih, List.foldl_cons]

theorem leadingType?_eq_of_renamed (hrename : Function.Injective rename)
    (h : Renamed rename c c') (name : String) :
    c'.leadingType? (rename name) = c.leadingType? name := by
  have hleft := h.left.feature? hrename name
  have hright := h.right.feature? hrename name
  simp only [leadingType?, sides, List.findSome?_cons, List.findSome?_nil]
  generalize c.left.feature? name = l, c'.left.feature? (rename name) = l' at hleft
  generalize c.right.feature? name = r, c'.right.feature? (rename name) = r' at hright
  cases hleft with
  | some hf => exact congrArg some hf.columnType_eq
  | none =>
    cases hright with
    | some hf => exact congrArg some hf.columnType_eq
    | none => rfl

theorem tableFeatures_eq_of_renamed (hrename : Function.Injective rename)
    (h : Renamed rename c c') (type : ColumnType) :
    c'.tableFeatures type = (c.tableFeatures type).map rename := by
  rw [tableFeatures, featureNames_eq_of_renamed hrename h, List.filter_map, tableFeatures]
  simp only [Function.comp_def, leadingType?_eq_of_renamed hrename h]

/-- Whether the row of a name on one side has missing cells, if there is one. -/
def missingFlag? (type : ColumnType) (name : String) (side : DatasetStatistics) : Option Bool :=
  (row? type name side).map fun r => decide (0 < r.feature.stats.missing)

theorem missingFlag?_eq_of_renamed (hrename : Function.Injective rename)
    (h : RenamedSide rename d d') (type : ColumnType) (name : String) :
    missingFlag? type (rename name) d' = missingFlag? type name d := by
  have hfeature := h.feature? hrename name
  unfold missingFlag? row?
  generalize d.feature? name = f, d'.feature? (rename name) = f' at hfeature
  cases hfeature with
  | none => rfl
  | @some f f' hf =>
    simp only [Option.filter_some, hf.columnType_eq]
    by_cases htype : f.columnType = type <;> simp [htype, hf.stats.missing_eq]

/-- Which rows have missing cells does not depend on the names. -/
theorem missingFlags_eq_of_renamed (hrename : Function.Injective rename)
    (h : Renamed rename c c') (type : ColumnType) :
    c'.missingFlags type = c.missingFlags type := by
  have hflags (c : Comparison) : c.missingFlags type = (c.tableFeatures type).flatMap fun name =>
      c.sides.flatMap fun side => (missingFlag? type name side).toList := by
    simp only [missingFlags, shown, List.map_flatMap, missingFlag?, Option.toList_map]
  rw [hflags, hflags, tableFeatures_eq_of_renamed hrename h, List.flatMap_map]
  simp [sides, missingFlag?_eq_of_renamed hrename h.left,
    missingFlag?_eq_of_renamed hrename h.right]

/-! ## Nothing from outside is markup -/

/-- The page of a comparison holds no markup but its own. -/
structure Inert (c : Comparison) : Prop where
  /-- The marks are told by which of the rows that are shown have missing cells. -/
  marks : Text.marks c.renderHtml.toList =
    (layout (c.missingFlags .numeric) (c.missingFlags .categorical)).flatMap Page.tagMarks
  entities : Text.EntitiesOnly c.renderHtml.toList
  /-- With the entities read back, the cells are what the rows say. -/
  decoded : ∀ type, Page.rowsUnder (title type) c.renderHtml = (c.shown type).map Row.cells

theorem inert (c : Comparison) : Inert c where
  marks := by rw [renderHtml_eq_write, Page.marks_write, map_tag_elements]
  entities := by
    rw [renderHtml_eq_write]
    exact Page.entitiesOnly_write c.proper_of_mem_elements
  decoded := c.rowsUnder_renderHtml

/-- No text from outside can pass for markup: the marks of a page stay the same under every
renaming, and the texts of numbers, which need no escaping, have no marks. -/
theorem renderHtml_inert (c : Comparison) :
    Inert c ∧
    (∀ rename c', Set.InjOn rename {name | name ∈ c.ownNames} → Renamed rename c c' →
      Text.marks c'.renderHtml.toList = Text.marks c.renderHtml.toList) ∧
    (∀ n : Nat, Text.Unmarked (toString n)) ∧ (∀ x, Text.Unmarked (writeStatistic x)) ∧
    ∀ rate, Text.Unmarked (writePercentage rate ++ "%") := by
  refine ⟨c.inert, fun rename c' hrename h => ?_, unmarked_toString, unmarked_writeStatistic,
    unmarked_share⟩
  obtain ⟨f, hinjective, hf⟩ := h.exists_injective hrename
  rw [c'.inert.marks, c.inert.marks, missingFlags_eq_of_renamed hinjective hf,
    missingFlags_eq_of_renamed hinjective hf]

/-- A column of one text of one character. -/
def oneCell (name text : String) : Table where
  index := [0]
  columns := [⟨name, .categorical [some text]⟩]
  names_nodup := by simp
  length_columns := by simp [Column.length, Cells.length]

theorem renamed_oneCell : Renamed (fun name => "<" ++ name ++ ">")
    (.of "train" (oneCell "f" "x") "test" (oneCell "f" "x"))
    (.of "<i>" (oneCell "<f>" "'") "&" (oneCell "<f>" "'")) := by
  have hstats : CategoricalStatistics.of [some "'"] =
      { CategoricalStatistics.of [some "x"] with
        top := some "'", frequencies := .ofList [("'", 1)] } := by
    decide +kernel
  have hfeature : RenamedFeature (fun name => "<" ++ name ++ ">")
      (.of ⟨"f", .categorical [some "x"]⟩) (.of ⟨"<f>", .categorical [some "'"]⟩) := by
    refine ⟨rfl, ?_⟩
    show FeatureKind.Alike (.categorical _) (.categorical (.of [some "'"]))
    rw [hstats]
    exact .categorical _ _ _ (by decide +kernel)
  exact ⟨⟨rfl, .cons hfeature .nil⟩, ⟨rfl, .cons hfeature .nil⟩⟩

/-- Names and a text that look like markup add no mark to a page. -/
theorem oneCell_inert :
    Renamed (fun name => "<" ++ name ++ ">")
      (.of "train" (oneCell "f" "x") "test" (oneCell "f" "x"))
      (.of "<i>" (oneCell "<f>" "'") "&" (oneCell "<f>" "'")) ∧
    Text.marks (Comparison.of "<i>" (oneCell "<f>" "'") "&" (oneCell "<f>" "'")).renderHtml.toList =
      Text.marks
        (Comparison.of "train" (oneCell "f" "x") "test" (oneCell "f" "x")).renderHtml.toList := by
  have hinjective : Function.Injective fun name => "<" ++ name ++ ">" := by
    intro a b h
    exact String.toList_injective (by simpa using congrArg String.toList h)
  exact ⟨renamed_oneCell, (renderHtml_inert _).2.1 _ _ hinjective.injOn renamed_oneCell⟩

end Comparison

end Tableflow
