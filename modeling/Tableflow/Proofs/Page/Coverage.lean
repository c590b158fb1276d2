import Mathlib.Data.List.Perm.Basic
import Tableflow.Facets.TextOverview
import Tableflow.Proofs.Dictionary
import Tableflow.Proofs.Page.Tables

/-!
# What the overviews cover

The overview as text has a line of statistics for every feature on every side that has it
(`lines_perm`). The page has a row for all of them but the features of the right side that the left
side has under another type: such a feature goes to the table of its type on the left, and its row
on the right is left out (`shown_append_omitted_perm`). So the page is complete just if no feature
is of different types on the two sides (`complete_iff`).
-/

namespace Tableflow

/-! ## Look-up by name -/

namespace DatasetStatistics

/-- The features of a side have distinct names. -/
def Named (d : DatasetStatistics) : Prop := (d.features.map (·.name)).Nodup

variable {d : DatasetStatistics}

theorem Named.feature?_eq_some_iff (h : d.Named) {name : String} {f : FeatureStatistics} :
    d.feature? name = some f ↔ f ∈ d.features ∧ f.name = name :=
  find?_name_eq_some_iff h

theorem feature?_eq_none_iff {name : String} :
    d.feature? name = none ↔ ∀ f ∈ d.features, f.name ≠ name := by
  simp [feature?]

/-- The features of some names, in the order of the names or of the features. -/
theorem Named.filterMap_feature?_perm (h : d.Named) {names : List String} (hnames : names.Nodup) :
    (names.filterMap d.feature?).Perm (d.features.filter fun f => f.name ∈ names) := by
  have hfound : (names.filterMap d.feature?).Nodup := hnames.filterMap fun a a' f hf hf' =>
    (h.feature?_eq_some_iff.1 hf).2.symm.trans (h.feature?_eq_some_iff.1 hf').2
  refine (List.perm_ext_iff_of_nodup hfound (h.of_map.filter _)).2 fun f => ?_
  simp only [List.mem_filterMap, h.feature?_eq_some_iff, List.mem_filter, decide_eq_true_eq]
  constructor
  · rintro ⟨_, hname, hmem, rfl⟩
    exact ⟨hmem, hname⟩
  · rintro ⟨hmem, hname⟩
    exact ⟨_, hname, hmem, rfl⟩

end DatasetStatistics

namespace Comparison

variable {c : Comparison}

/-! ## The names of the features -/

theorem mem_addName {names : List String} {added name : String} :
    name ∈ addName names added ↔ name ∈ names ∨ name = added := by
  unfold addName
  split
  · next h => exact ⟨.inl, fun hname => hname.elim id fun heq => heq ▸ h⟩
  · simp

theorem mem_foldl_addName {names start : List String} {name : String} :
    name ∈ names.foldl addName start ↔ name ∈ start ∨ name ∈ names := by
  induction names generalizing start with
  | nil => simp
  | cons first rest ih => rw [List.foldl_cons, ih, mem_addName, List.mem_cons, or_assoc]

theorem nodup_foldl_addName {names start : List String} (h : start.Nodup) :
    (names.foldl addName start).Nodup := by
  induction names generalizing start with
  | nil => exact h
  | cons first rest ih =>
    refine ih ?_
    unfold addName
    split
    · exact h
    · next hfresh => exact List.nodup_append.2 ⟨h, List.nodup_singleton _, by
        rintro _ ha _ hb rfl
        exact hfresh (List.mem_singleton.1 hb ▸ ha)⟩

theorem mem_featureNames {name : String} :
    name ∈ c.featureNames ↔ ∃ side ∈ c.sides, ∃ f ∈ side.features, f.name = name := by
  simp [featureNames, mem_foldl_addName, sides]

/-! ## The rows of the page -/

/-- The rows of all features of a type, on whichever side they are of that type. -/
def present (c : Comparison) (type : ColumnType) : List Row :=
  c.sides.flatMap fun side =>
    (side.features.filter fun f => f.columnType = type).map (Row.mk side.name)

/-- The feature is of another type on the left side. -/
def Retyped (c : Comparison) (f : FeatureStatistics) : Prop :=
  ∃ l ∈ c.left.features, l.name = f.name ∧ l.columnType ≠ f.columnType

instance (f : FeatureStatistics) : Decidable (c.Retyped f) :=
  inferInstanceAs (Decidable (∃ l ∈ c.left.features, _))

/-- The rows of the features on the right side that are of another type on the left side. -/
def omitted (c : Comparison) (type : ColumnType) : List Row :=
  (c.right.features.filter fun f => f.columnType = type ∧ c.Retyped f).map (Row.mk c.right.name)

theorem leadingType?_of_left (hl : c.left.Named) {f : FeatureStatistics}
    (hf : f ∈ c.left.features) : c.leadingType? f.name = some f.columnType := by
  have hfind : c.left.feature? f.name = some f := hl.feature?_eq_some_iff.2 ⟨hf, rfl⟩
  simp [leadingType?, sides, hfind]

theorem leadingType?_of_right (hl : c.left.Named) (hr : c.right.Named) {f : FeatureStatistics}
    (hf : f ∈ c.right.features) : c.leadingType? f.name = some f.columnType ↔ ¬c.Retyped f := by
  cases hleft : c.left.feature? f.name with
  | none =>
    have hfind : c.right.feature? f.name = some f := hr.feature?_eq_some_iff.2 ⟨hf, rfl⟩
    have hnot : ¬c.Retyped f := by
      rintro ⟨l, hmem, hname, -⟩
      exact DatasetStatistics.feature?_eq_none_iff.1 hleft l hmem hname
    simp [leadingType?, sides, hleft, hfind, hnot]
  | some l =>
    obtain ⟨hmem, hname⟩ := hl.feature?_eq_some_iff.1 hleft
    rw [← hname, leadingType?_of_left hl hmem, Option.some_inj]
    constructor
    · rintro htype ⟨l', hmem', hname', hne⟩
      obtain rfl := List.inj_on_of_nodup_map hl hmem' hmem (hname'.trans hname.symm)
      exact hne htype
    · exact fun h => Decidable.of_not_not fun hne => h ⟨l, hmem, hname, hne⟩

theorem mem_tableFeatures {type : ColumnType} {side : DatasetStatistics} (hside : side ∈ c.sides)
    {f : FeatureStatistics} (hf : f ∈ side.features) :
    f.name ∈ c.tableFeatures type ↔ c.leadingType? f.name = some type := by
  have hname : f.name ∈ c.featureNames := mem_featureNames.2 ⟨side, hside, f, hf, rfl⟩
  simp [tableFeatures, hname]

/-- The rows of one side that the table of a type shows. -/
theorem shownOn_perm {side : DatasetStatistics} (hside : side ∈ c.sides) (hl : c.left.Named)
    (hnamed : side.Named) (type : ColumnType) :
    ((c.tableFeatures type).flatMap fun name => (row? type name side).toList).Perm
      ((side.features.filter fun f => f.columnType = type ∧
        c.leadingType? f.name = some f.columnType).map (Row.mk side.name)) := by
  have hnames : (c.tableFeatures type).Nodup := (nodup_foldl_addName hl).filter _
  have hrows : ∀ names : List String,
      (names.flatMap fun name => (row? type name side).toList) =
        ((names.filterMap side.feature?).filter fun f => f.columnType = type).map
          (Row.mk side.name) := by
    intro names
    induction names with
    | nil => rfl
    | cons name rest ih =>
      rw [List.flatMap_cons, ih, List.filterMap_cons]
      cases hfeature : side.feature? name with
      | none => simp [row?, hfeature]
      | some f =>
        rw [row?_of_feature? hfeature, List.filter_cons]
        by_cases htype : f.columnType = type <;> simp [htype]
  have hfilter : (side.features.filter fun f => f.name ∈ c.tableFeatures type).filter
        (fun f => f.columnType = type) =
      side.features.filter fun f => f.columnType = type ∧
        c.leadingType? f.name = some f.columnType := by
    rw [List.filter_filter]
    refine List.filter_congr fun f hf => ?_
    rw [← Bool.decide_and, decide_eq_decide, mem_tableFeatures hside hf]
    exact and_congr_right fun htype => by rw [htype]
  rw [hrows, ← hfilter]
  exact ((hnamed.filterMap_feature?_perm hnames).filter _).map _

/-- A feature of the right side leads in its type, or it is retyped. -/
theorem filter_leading_append_retyped_perm (hl : c.left.Named) (hr : c.right.Named)
    (type : ColumnType) :
    (c.right.features.filter (fun f => f.columnType = type ∧
        c.leadingType? f.name = some f.columnType) ++
      c.right.features.filter fun f => f.columnType = type ∧ c.Retyped f).Perm
        (c.right.features.filter fun f => f.columnType = type) := by
  have hkept : c.right.features.filter (fun f => f.columnType = type ∧
        c.leadingType? f.name = some f.columnType) =
      (c.right.features.filter fun f => f.columnType = type).filter fun f => ¬c.Retyped f := by
    rw [List.filter_filter]
    exact List.filter_congr fun f hf => by simp [leadingType?_of_right hl hr hf, and_comm]
  have hlost : c.right.features.filter (fun f => f.columnType = type ∧ c.Retyped f) =
      (c.right.features.filter fun f => f.columnType = type).filter
        fun f => !decide ¬c.Retyped f := by
    rw [List.filter_filter]
    exact List.filter_congr fun f _ => by simp [and_comm]
  rw [hkept, hlost]
  exact List.filter_append_perm ..

/-- The page shows all rows but the omitted ones. -/
theorem shown_append_omitted_perm (hl : c.left.Named) (hr : c.right.Named) (type : ColumnType) :
    (c.shown type ++ c.omitted type).Perm (c.present type) := by
  have hsides : c.present type =
      (c.left.features.filter fun f => f.columnType = type).map (Row.mk c.left.name) ++
        (c.right.features.filter fun f => f.columnType = type).map (Row.mk c.right.name) := by
    simp [present, sides]
  have hshown : c.shown type = (c.tableFeatures type).flatMap fun name =>
      (row? type name c.left).toList ++ (row? type name c.right).toList := by
    simp [shown, sides]
  have hleft : c.left.features.filter (fun f => f.columnType = type ∧
        c.leadingType? f.name = some f.columnType) =
      c.left.features.filter fun f => f.columnType = type :=
    List.filter_congr fun f hf => by simp [leadingType?_of_left hl hf]
  rw [hshown, hsides]
  have hone := @shownOn_perm c c.left (by simp [sides]) hl hl type
  have htwo := @shownOn_perm c c.right (by simp [sides]) hl hr type
  rw [hleft] at hone
  refine ((List.flatMap_append_perm _ _ _).symm.append_right _).trans ?_
  rw [List.append_assoc]
  refine hone.append ((htwo.append_right _).trans ?_)
  rw [omitted, ← List.map_append]
  exact (filter_leading_append_retyped_perm hl hr type).map _

/-- Every row of data stands in the table of its type, and there are no others. -/
structure Complete (c : Comparison) : Prop where
  rows : ∀ type,
    (Page.rowsUnder (title type) c.renderHtml).Perm ((c.present type).map Row.cells)
  headed : ∀ s ∈ Page.sections c.renderHtml, s.2 ≠ [] → ∃ type, s.1 = title type

/-- Rows stand under the headings of the two types only. -/
theorem headed (c : Comparison) :
    ∀ s ∈ Page.sections c.renderHtml, s.2 ≠ [] → ∃ type, s.1 = title type := by
  have htable : ∀ type rows, ∀ s ∈ shownTable type rows, s.1 = title type := by
    intro type rows s hs
    cases rows with
    | nil => cases hs
    | cons r rest => rw [List.mem_singleton.1 hs]
  intro s hs hrows
  rw [sections_renderHtml] at hs
  rcases List.mem_cons.1 hs with rfl | hs
  · exact absurd rfl hrows
  · rcases List.mem_append.1 hs with hs | hs
    · exact ⟨_, htable _ _ s hs⟩
    · exact ⟨_, htable _ _ s hs⟩

theorem complete_iff (hl : c.left.Named) (hr : c.right.Named) :
    c.Complete ↔ ∀ f ∈ c.right.features, ¬c.Retyped f := by
  have hperm := shown_append_omitted_perm hl hr
  constructor
  · rintro ⟨hrows, -⟩ f hf hretyped
    have hlength := (hrows f.columnType).length_eq
    rw [rowsUnder_renderHtml, List.length_map, List.length_map,
      ← (hperm f.columnType).length_eq, List.length_append] at hlength
    have hmem : Row.mk c.right.name f ∈ c.omitted f.columnType :=
      List.mem_map_of_mem (List.mem_filter.2 ⟨hf, decide_eq_true ⟨rfl, hretyped⟩⟩)
    have := List.length_pos_of_mem hmem
    omega
  · refine fun h => ⟨fun type => ?_, c.headed⟩
    have hnone : c.omitted type = [] := by
      rw [omitted, List.filter_eq_nil_iff.2 fun f hf => by simp [h f hf], List.map_nil]
    rw [rowsUnder_renderHtml, ← List.append_nil (c.shown type), ← hnone]
    exact (hperm type).map _

/-! ## The lines of the text -/

/-- The line for a feature that a side has. -/
def presentLine (side : DatasetStatistics) (f : FeatureStatistics) : String :=
  lineStart f.name side.name (toString f.count) ++ statisticsColumns f.stats

/-- The names of the features that a side lacks. -/
def lacking (c : Comparison) (side : DatasetStatistics) : List String :=
  c.featureNames.filter fun name => ∀ f ∈ side.features, f.name ≠ name

/-- The lines of one side. -/
def sideLines (c : Comparison) (side : DatasetStatistics) : List String :=
  side.features.map (presentLine side) ++
    (c.lacking side).map fun name => lineStart name side.name "-"

theorem map_featureLine_perm {side : DatasetStatistics} (hside : side ∈ c.sides)
    (hl : c.left.Named) (hnamed : side.Named) :
    (c.featureNames.map fun name => featureLine name side).Perm (c.sideLines side) := by
  have hnames : c.featureNames.Nodup := nodup_foldl_addName hl
  have hown : (c.featureNames.filter fun name => !decide (∀ f ∈ side.features, f.name ≠ name)).Perm
      (side.features.map (·.name)) := by
    refine (List.perm_ext_iff_of_nodup (hnames.filter _) hnamed).2 fun name => ?_
    rw [List.mem_filter, mem_featureNames, List.mem_map]
    constructor
    · rintro ⟨-, h⟩
      simpa using h
    · rintro ⟨f, hf, rfl⟩
      exact ⟨⟨side, hside, f, hf, rfl⟩, by simpa using ⟨f, hf, rfl⟩⟩
  have hpresent : (side.features.map (·.name)).map (fun name => featureLine name side) =
      side.features.map (presentLine side) := by
    rw [List.map_map]
    refine List.map_congr_left fun f hf => ?_
    rw [Function.comp_apply, featureLine, hnamed.feature?_eq_some_iff.2 ⟨hf, rfl⟩, presentLine]
  have hlacking : (c.lacking side).map (fun name => featureLine name side) =
      (c.lacking side).map fun name => lineStart name side.name "-" := by
    refine List.map_congr_left fun name hname => ?_
    have hnone : side.feature? name = none :=
      DatasetStatistics.feature?_eq_none_iff.2 (by simpa using (List.mem_filter.1 hname).2)
    rw [featureLine, hnone]
  have hsplit : (c.lacking side ++ c.featureNames.filter fun name =>
      !decide (∀ f ∈ side.features, f.name ≠ name)).Perm c.featureNames :=
    List.filter_append_perm ..
  rw [sideLines, ← hpresent, ← hlacking, ← List.map_append]
  exact (hsplit.symm.trans (List.perm_append_comm.trans (hown.append_right _))).map _

/-- Behind the headings the text has the lines of both sides. -/
theorem lines_perm (hl : c.left.Named) (hr : c.right.Named) :
    (c.featureNames.flatMap fun name => c.sides.map (featureLine name)).Perm
      (c.sides.flatMap c.sideLines) := by
  have hlines : (c.featureNames.flatMap fun name => c.sides.map (featureLine name)) =
      c.featureNames.flatMap fun name => [featureLine name c.left] ++ [featureLine name c.right] :=
    rfl
  have hsides : c.sides.flatMap c.sideLines = c.sideLines c.left ++ c.sideLines c.right := by
    simp [sides]
  rw [hlines, hsides]
  refine (List.flatMap_append_perm _ _ _).symm.trans ?_
  rw [← List.map_eq_flatMap, ← List.map_eq_flatMap]
  exact (map_featureLine_perm (by simp [sides]) hl hl).append
    (map_featureLine_perm (by simp [sides]) hl hr)

/-! ## Comparisons of tables -/

theorem columnType_of (column : Column) :
    (FeatureStatistics.of column).columnType = column.columnType := by
  obtain ⟨_, cells⟩ := column
  cases cells <;> rfl

theorem named_of (name : String) (t : Table) : (DatasetStatistics.of name t).Named := by
  have hnames : (t.columns.map FeatureStatistics.of).map (·.name) = t.columns.map (·.name) := by
    rw [List.map_map]
    rfl
  rw [DatasetStatistics.Named, DatasetStatistics.of, hnames]
  exact t.names_nodup

/-- What the two overviews of a comparison show. -/
structure Coverage (c : Comparison) : Prop where
  page : ∀ type, (Page.rowsUnder (title type) c.renderHtml ++
    (c.omitted type).map Row.cells).Perm ((c.present type).map Row.cells)
  headed : ∀ s ∈ Page.sections c.renderHtml, s.2 ≠ [] → ∃ type, s.1 = title type
  text : ∃ lines, c.renderText =
      String.join ((c.titleLine :: headingLine :: lines).map (· ++ "\n")) ∧
    lines.Perm (c.sides.flatMap c.sideLines)

/-- The text has a line of statistics for every feature of both tables. The page has a row for all
of them just if no feature has a different type in the two tables; it leaves out the right rows of
the ones that have. -/
theorem coverage_of (leftName : String) (left : Table) (rightName : String) (right : Table) :
    Coverage (.of leftName left rightName right) ∧
      (Complete (.of leftName left rightName right) ↔ ∀ l ∈ left.columns, ∀ r ∈ right.columns,
        l.name = r.name → l.columnType = r.columnType) := by
  have hl := named_of leftName left
  have hr := named_of rightName right
  refine ⟨⟨fun type => ?_, headed _, _, rfl, lines_perm hl hr⟩, (complete_iff hl hr).trans ?_⟩
  · rw [rowsUnder_renderHtml, ← List.map_append]
    exact (shown_append_omitted_perm hl hr type).map _
  · constructor
    · intro h l hmem r hmem' hname
      refine Decidable.of_not_not fun hne => h (.of r) (List.mem_map_of_mem hmem') ?_
      exact ⟨.of l, List.mem_map_of_mem hmem, hname, by rwa [columnType_of, columnType_of]⟩
    · rintro h _ hf ⟨_, hf', hname, hne⟩
      obtain ⟨r, hmem', rfl⟩ := List.mem_map.1 hf
      obtain ⟨l, hmem, rfl⟩ := List.mem_map.1 hf'
      rw [columnType_of, columnType_of] at hne
      exact hne (h l hmem r hmem' hname)

/-- A column of numbers. -/
def oneNumber : Table where
  index := [0]
  columns := [⟨"f", .numeric [some ⟨0x3ff0000000000000⟩]⟩]
  names_nodup := by decide
  length_columns := by decide

/-- A column of texts under the same name. -/
def oneText : Table where
  index := [0]
  columns := [⟨"f", .categorical [some "x"]⟩]
  names_nodup := by decide
  length_columns := by decide

/-- The row of the texts is left out of the page. -/
theorem oneNumber_oneText_incomplete : ¬Complete (.of "train" oneNumber "test" oneText) := by
  intro h
  have hkept := (complete_iff (named_of "train" oneNumber) (named_of "test" oneText)).1 h
  exact hkept (.of ⟨"f", .categorical [some "x"]⟩) (by simp [of, DatasetStatistics.of, oneText])
    ⟨.of ⟨"f", .numeric [some ⟨0x3ff0000000000000⟩]⟩,
      by simp [of, DatasetStatistics.of, oneNumber], rfl, by decide⟩

end Comparison

end Tableflow
