import Tableflow.Proofs.Page.Rows

/-!
# The layout of the overview page

The tags of the page are told by two lists: for each type of features, which of the rows that are
shown have missing cells (`layout`, `map_tag_elements`). No tag holds anything from outside
(`proper_of_mem_elements`), which is why the elements can be read back.
-/

namespace Tableflow.Comparison

open Page (Proper)

/-! ## Tags -/

def cellTags (count : Nat) : List String := (List.replicate count ["td", "/td"]).flatten

/-- The number of cells behind the share of missing cells. -/
def detailCount : ColumnType → Nat
  | .numeric => 6
  | .categorical => 4

def rowTags (type : ColumnType) (missing : Bool) : List String :=
  "tr" :: (cellTags 3 ++ [Row.shareTag missing, "/td"] ++ cellTags (detailCount type)) ++ ["/tr"]

def headingTags (type : ColumnType) : List String :=
  ["h2", "/h2", "table", "tr"] ++ (List.replicate (detailCount type + 4) ["th", "/th"]).flatten ++
    ["/tr"]

/-- The tags of a table, by which of its rows have missing cells. -/
def tableTags (type : ColumnType) : List Bool → List String
  | [] => []
  | flags => headingTags type ++ flags.flatMap (rowTags type) ++ ["/table"]

def startTags : List String :=
  ["!DOCTYPE html", "html", "head", "meta charset=\"utf-8\"", "title", "/title", "style", "/style",
    "/head", "body", "h1", "/h1", "p", "/p"]

/-- The tags of a page, by which rows of its two tables have missing cells. -/
def layout (numeric categorical : List Bool) : List String :=
  startTags ++ tableTags .numeric numeric ++ tableTags .categorical categorical ++
    ["/body", "/html"]

theorem proper_of_mem_layout {numeric categorical : List Bool} {tag : String}
    (h : tag ∈ layout numeric categorical) : Proper tag := by
  have hrow : ∀ type missing, ∀ tag ∈ rowTags type missing, Proper tag := by
    intro type missing
    cases type <;> cases missing <;> decide +kernel
  have htable : ∀ type flags, ∀ tag ∈ tableTags type flags, Proper tag := by
    intro type flags tag htag
    cases flags with
    | nil => cases htag
    | cons missing rest =>
      simp only [tableTags, List.mem_append, List.mem_flatMap] at htag
      rcases htag with (htag | ⟨_, -, htag⟩) | htag
      · revert tag
        cases type <;> decide +kernel
      · exact hrow type _ tag htag
      · revert tag
        decide +kernel
  simp only [layout, List.mem_append] at h
  rcases h with ((h | h) | h) | h
  · revert tag
    decide +kernel
  · exact htable _ _ tag h
  · exact htable _ _ tag h
  · revert tag
    decide +kernel

/-! ## The tags of the page -/

variable {c : Comparison}

theorem columnType_of_mem_shown {type : ColumnType} {r : Row} (h : r ∈ c.shown type) :
    r.feature.columnType = type := by
  obtain ⟨name, -, h⟩ := List.mem_flatMap.1 h
  obtain ⟨side, -, h⟩ := List.mem_flatMap.1 h
  obtain ⟨f, hf, rfl⟩ := Option.map_eq_some_iff.1 (Option.mem_toList.1 h)
  simpa using (Option.filter_eq_some_iff.1 hf).2

theorem map_tag_row (r : Row) :
    r.elements.map (·.tag) = rowTags r.feature.columnType (0 < r.feature.stats.missing) := by
  obtain ⟨dataset, name, stats⟩ := r
  cases stats <;> rfl

/-- Which of the rows that are shown have missing cells. -/
def missingFlags (c : Comparison) (type : ColumnType) : List Bool :=
  (c.shown type).map fun r => decide (0 < r.feature.stats.missing)

theorem map_tag_tableElements {type : ColumnType} {rows : List Row}
    (h : ∀ r ∈ rows, r.feature.columnType = type) :
    (tableElements type rows).map (·.tag) =
      tableTags type (rows.map fun r => decide (0 < r.feature.stats.missing)) := by
  have hheading : (headingElements type).map (·.tag) = headingTags type := by
    cases type <;> rfl
  have hrow : rows.map (fun r => r.elements.map (·.tag)) =
      rows.map fun r => rowTags type (0 < r.feature.stats.missing) :=
    List.map_congr_left fun r hr => by rw [map_tag_row, h r hr]
  have hrows : (rows.flatMap Row.elements).map (·.tag) =
      (rows.map fun r => decide (0 < r.feature.stats.missing)).flatMap (rowTags type) := by
    rw [List.map_flatMap, List.flatMap_def, hrow, ← List.flatMap_def, List.flatMap_map]
  cases rows with
  | nil => rfl
  | cons r rest =>
    rw [tableElements_of_ne_nil (by simp), List.map_append, List.map_append, hheading, hrows]
    rfl

/-- The tags of the page are told by which rows have missing cells. -/
theorem map_tag_elements (c : Comparison) :
    c.elements.map (·.tag) = layout (c.missingFlags .numeric) (c.missingFlags .categorical) := by
  rw [elements, List.map_append, List.map_append, List.map_append,
    map_tag_tableElements fun _ => columnType_of_mem_shown,
    map_tag_tableElements fun _ => columnType_of_mem_shown]
  rfl

theorem proper_of_mem_elements (c : Comparison) : ∀ e ∈ c.elements, Proper e.tag := fun _ he =>
  proper_of_mem_layout (c.map_tag_elements ▸ List.mem_map_of_mem he)

end Tableflow.Comparison
