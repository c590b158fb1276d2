import Mathlib
import Tableflow.Proofs.Page.Coverage
import Tableflow.Proofs.Statistics.MostFrequent
import Tableflow.Proofs.Text.Lines

/-!
# The lines of the overview as text

Behind two lines of headings the overview has two lines for each feature that one of the tables has,
one for each of them (`Comparison.Tells`): the left table's features come first, in their order, and
then those that only the right table has. A line tells the statistics of the feature in its own
table, in the form of its type there, or it ends in a dash if the table lacks the feature. The main
statement is `Comparison.renderText_lines`.
-/

namespace Tableflow

open Text (OneLine AtLeft AtRight)

/-! ## Tables without line feeds -/

/-- The names of the columns and the texts in the cells have no line feed. -/
structure Table.OneLine (t : Table) : Prop where
  names : ∀ name ∈ t.names, Text.OneLine name
  texts : ∀ c ∈ t.columns, ∀ values, c.cells = .categorical values →
    ∀ text, some text ∈ values → Text.OneLine text

namespace Comparison

/-! ## The form of a line -/

/-- What a line tells of numbers. -/
def TellsNumbers (s : NumericStatistics) (rest : String) : Prop :=
  ∃ count missing mean stdDev min median max,
    rest = count ++ " " ++ missing ++ "% " ++ mean ++ " " ++ stdDev ++ " " ++ min ++ " " ++
      median ++ " " ++ max ∧
    AtRight 6 (toString s.count) count ∧ AtRight 7 (writePercentage s.missingRate) missing ∧
    AtRight 9 (writeStatistic s.mean) mean ∧ AtRight 9 (writeStatistic s.stdDev) stdDev ∧
    AtRight 8 (writeStatistic s.min) min ∧ AtRight 8 (writeStatistic s.median) median ∧
    AtRight 8 (writeStatistic s.max) max

/-- What a line tells of texts. -/
def TellsTexts (s : CategoricalStatistics) (rest : String) : Prop :=
  ∃ count missing,
    rest = count ++ " " ++ missing ++ "%  unique=" ++ toString s.unique ++ " top=" ++
      s.top.getD "-" ++ " (" ++ toString s.topFrequency ++ ")" ∧
    AtRight 6 (toString s.count) count ∧ AtRight 7 (writePercentage s.missingRate) missing

/-- What a line tells of a column, in the form of the column's type. -/
def TellsCells : Cells → String → Prop
  | .numeric values, rest => TellsNumbers (.of values) rest
  | .categorical values, rest => TellsTexts (.of values) rest

/-- A line tells a feature of a named table: behind the names of the feature and the table stands a
dash if the table lacks the feature, and otherwise what there is to tell of its column. -/
def Tells (feature dataset : String) (t : Table) (line : String) : Prop :=
  ∃ start side rest, line = start ++ " " ++ side ++ " " ++ rest ∧ AtLeft 24 feature start ∧
    AtLeft 10 dataset side ∧ (rest = "     -" ↔ t.column? feature = none) ∧
    ∀ c, t.column? feature = some c → TellsCells c.cells rest

/-! ## The names of the features -/

/-- Distinct names are added behind the others, without those that are there already. -/
theorem foldl_addName_eq {names start : List String} (h : names.Nodup) :
    names.foldl addName start = start ++ names.filter (· ∉ start) := by
  induction names generalizing start with
  | nil => simp
  | cons name rest ih =>
    obtain ⟨hname, hrest⟩ := List.nodup_cons.1 h
    rw [List.foldl_cons, ih hrest, addName]
    split
    · next hmem => rw [List.filter_cons_of_neg (by simpa using hmem)]
    · next hmem =>
      -- none of the other names is the one just added
      have hfilter : rest.filter (· ∉ start ++ [name]) = rest.filter (· ∉ start) :=
        List.filter_congr fun other hother => by
          have hne : other ≠ name := fun heq => hname (heq ▸ hother)
          simp [hne]
      rw [hfilter, List.filter_cons_of_pos (by simpa using hmem), List.append_assoc,
        List.singleton_append]

variable {leftName rightName : String} {left right : Table}

/-- The names of the left table's columns, and behind them those that only the right table has. -/
def joinedNames (left right : Table) : List String :=
  left.names ++ right.names.filter (· ∉ left.names)

theorem names_of (name : String) (t : Table) :
    (DatasetStatistics.of name t).features.map (·.name) = t.names := by
  rw [DatasetStatistics.of, List.map_map]
  rfl

theorem featureNames_of :
    (Comparison.of leftName left rightName right).featureNames = joinedNames left right := by
  have hnodup : right.names.Nodup := right.names_nodup
  rw [featureNames, of, names_of, names_of, foldl_addName_eq hnodup, joinedNames]

/-- Every name of either table is there once. -/
theorem length_joinedNames (left right : Table) :
    (joinedNames left right).length = (left.names.toFinset ∪ right.names.toFinset).card := by
  have hnodup : (joinedNames left right).Nodup := by
    rw [← @featureNames_of "" "" left right]
    exact nodup_foldl_addName (named_of "" left)
  rw [← List.toFinset_card_of_nodup hnodup]
  congr 1
  ext name
  simp only [joinedNames, List.mem_toFinset, List.mem_append, List.mem_filter, Finset.mem_union,
    decide_eq_true_eq]
  tauto

/-! ## What the lines tell -/

theorem feature?_of (dataset : String) (t : Table) (name : String) :
    (DatasetStatistics.of dataset t).feature? name = (t.column? name).map .of := by
  rw [DatasetStatistics.feature?, DatasetStatistics.of, List.find?_map]
  rfl

theorem tellsNumbers_columns (s : NumericStatistics) :
    TellsNumbers s (Text.alignRight 6 (toString s.count) ++ statisticsColumns (.numeric s)) := by
  refine ⟨_, _, _, _, _, _, _, ?_, Text.atRight_alignRight .., Text.atRight_alignRight ..,
    Text.atRight_alignRight .., Text.atRight_alignRight .., Text.atRight_alignRight ..,
    Text.atRight_alignRight .., Text.atRight_alignRight ..⟩
  simp only [statisticsColumns, missingColumn, numericColumns, String.append_assoc]
  rfl

theorem tellsTexts_columns (s : CategoricalStatistics) :
    TellsTexts s (Text.alignRight 6 (toString s.count) ++ statisticsColumns (.categorical s)) := by
  refine ⟨_, _, ?_, Text.atRight_alignRight .., Text.atRight_alignRight ..⟩
  simp only [statisticsColumns, missingColumn, String.append_assoc]
  rfl

/-- The columns of a feature that is there are wider than the one with the count. -/
theorem lt_length_columns (count : Nat) (stats : FeatureKind) :
    6 < (Text.alignRight 6 (toString count) ++ statisticsColumns stats).length := by
  obtain ⟨-, -, hlength⟩ := Text.atRight_alignRight 6 (toString count)
  have hcolumns : 0 < (statisticsColumns stats).length := by
    cases stats <;> simp only [statisticsColumns, missingColumn, String.length_append] <;>
      exact Nat.add_pos_left (Nat.add_pos_left (Nat.add_pos_left (by decide) _) _) _
  rw [String.length_append, hlength]
  omega

theorem featureLine_of_lacking {name : String} {t : Table} (h : t.column? name = none)
    (dataset : String) : featureLine name (.of dataset t) =
      Text.alignLeft 24 name ++ " " ++ Text.alignLeft 10 dataset ++ " " ++ "     -" := by
  rw [featureLine, feature?_of, h]
  rfl

theorem featureLine_of_column {name : String} {t : Table} {c : Column}
    (h : t.column? name = some c) (dataset : String) :
    featureLine name (.of dataset t) =
      Text.alignLeft 24 name ++ " " ++ Text.alignLeft 10 dataset ++ " " ++
        (Text.alignRight 6 (toString (FeatureStatistics.of c).count) ++
          statisticsColumns (FeatureStatistics.of c).stats) := by
  rw [featureLine, feature?_of, h, ← String.append_assoc]
  rfl

theorem tellsCells_of (c : Column) :
    TellsCells c.cells (Text.alignRight 6 (toString (FeatureStatistics.of c).count) ++
      statisticsColumns (FeatureStatistics.of c).stats) := by
  obtain ⟨name, cells⟩ := c
  cases cells with
  | numeric values => exact tellsNumbers_columns _
  | categorical values => exact tellsTexts_columns _

theorem tells_featureLine (name dataset : String) (t : Table) :
    Tells name dataset t (featureLine name (.of dataset t)) := by
  cases hcolumn : t.column? name with
  | none =>
    refine ⟨_, _, _, featureLine_of_lacking hcolumn dataset, Text.atLeft_alignLeft ..,
      Text.atLeft_alignLeft .., iff_of_true rfl hcolumn, fun c hc => ?_⟩
    rw [hcolumn] at hc
    cases hc
  | some c =>
    refine ⟨_, _, _, featureLine_of_column hcolumn dataset, Text.atLeft_alignLeft ..,
      Text.atLeft_alignLeft .., iff_of_false (fun hdash => ?_) ?_, fun c' hc' => ?_⟩
    · have hlt := lt_length_columns (FeatureStatistics.of c).count (FeatureStatistics.of c).stats
      rw [hdash] at hlt
      exact absurd hlt (by decide)
    · rw [hcolumn]
      exact Option.some_ne_none c
    · obtain rfl := Option.some.inj (hcolumn.symm.trans hc')
      exact tellsCells_of c

/-! ## Line feeds -/

theorem oneLine_writeStatistic (x : Option Double) : OneLine (writeStatistic x) := by
  cases x with
  | none => decide
  | some x => exact Decimal.oneLine_writeFixed 3 x

theorem oneLine_missingColumn (rate : Double) : OneLine (missingColumn rate) := by
  have hshare : OneLine (writePercentage rate) := Decimal.oneLine_writeFixed 1 _
  simp only [missingColumn, Text.oneLine_append, Text.oneLine_alignRight]
  exact ⟨⟨by decide, hshare⟩, by decide⟩

/-- The columns of numbers have no line feed, and those of texts none that is not in a cell. -/
theorem oneLine_statisticsColumns {c : Column}
    (h : ∀ values, c.cells = .categorical values → ∀ text, some text ∈ values → OneLine text) :
    OneLine (statisticsColumns (FeatureStatistics.of c).stats) := by
  obtain ⟨name, cells⟩ := c
  cases cells with
  | numeric values =>
    simp only [FeatureStatistics.of, statisticsColumns, numericColumns, Text.oneLine_append,
      Text.oneLine_alignRight, oneLine_missingColumn, oneLine_writeStatistic, and_true, true_and]
    decide
  | categorical values =>
    have htop : OneLine ((CategoricalStatistics.of values).top.getD "-") := by
      cases htop : (CategoricalStatistics.of values).top with
      | none => decide
      | some text =>
        have hmem := (CategoricalStatistics.leading_of_top values htop).1.mem
        exact h values rfl text (by simpa using hmem)
    have hunique := Text.oneLine_toString (CategoricalStatistics.of values).unique
    have hfrequency := Text.oneLine_toString (CategoricalStatistics.of values).topFrequency
    simp only [FeatureStatistics.of, statisticsColumns, Text.oneLine_append,
      oneLine_missingColumn, true_and]
    exact ⟨⟨⟨⟨⟨⟨by decide, hunique⟩, by decide⟩, htop⟩, by decide⟩, hfrequency⟩, by decide⟩

theorem oneLine_featureLine {name dataset : String} {t : Table} (hname : OneLine name)
    (hdataset : OneLine dataset) (ht : t.OneLine) :
    OneLine (featureLine name (.of dataset t)) := by
  cases hcolumn : t.column? name with
  | none =>
    rw [featureLine_of_lacking hcolumn]
    simp only [Text.oneLine_append, Text.oneLine_alignLeft, hname, hdataset, true_and]
    decide
  | some c =>
    have hc : c ∈ t.columns := List.mem_of_find?_eq_some hcolumn
    rw [featureLine_of_column hcolumn]
    simp only [Text.oneLine_append, Text.oneLine_alignLeft, Text.oneLine_alignRight,
      Text.oneLine_toString, hname, hdataset, oneLine_statisticsColumns (ht.texts c hc), true_and,
      and_true]
    decide

theorem oneLine_titleLine (hleft : OneLine leftName) (hright : OneLine rightName) :
    OneLine (Comparison.of leftName left rightName right).titleLine := by
  have htitle : (Comparison.of leftName left rightName right).titleLine =
      "Facets overview: " ++ (leftName ++ " (" ++ toString left.numRows ++ " rows)" ++ " vs " ++
        (rightName ++ " (" ++ toString right.numRows ++ " rows)")) := rfl
  rw [htitle]
  simp only [Text.oneLine_append, Text.oneLine_toString, hleft, hright, true_and]
  decide

/-! ## The places of the lines -/

section

variable {α β : Type} (f g : α → β)

theorem length_flatMap_pair (items : List α) :
    (items.flatMap fun a => [f a, g a]).length = 2 * items.length := by
  induction items with
  | nil => rfl
  | cons a rest ih =>
    rw [List.flatMap_cons, List.length_append, ih]
    simp only [List.length_cons, List.length_nil]
    omega

/-- Where each item makes two, those of one item stand behind the pairs of the items before it. -/
theorem getElem?_flatMap_pair {items : List α} {i : Nat} {a : α} (h : items[i]? = some a) :
    (items.flatMap fun a => [f a, g a])[2 * i]? = some (f a) ∧
      (items.flatMap fun a => [f a, g a])[2 * i + 1]? = some (g a) := by
  induction items generalizing i with
  | nil => cases h
  | cons first rest ih =>
    cases i with
    | zero =>
      obtain rfl := Option.some.inj h
      exact ⟨rfl, rfl⟩
    | succ i => exact ih h

end

theorem oneLine_textLines (hleftName : OneLine leftName) (hrightName : OneLine rightName)
    (hleft : left.OneLine) (hright : right.OneLine) :
    ∀ line ∈ (Comparison.of leftName left rightName right).textLines, OneLine line := by
  have hnames : ∀ name ∈ joinedNames left right, OneLine name := by
    intro name hname
    rcases List.mem_append.1 hname with hname | hname
    · exact hleft.names name hname
    · exact hright.names name (List.mem_filter.1 hname).1
  rw [textLines, List.forall_mem_cons, List.forall_mem_cons, featureNames_of]
  refine ⟨oneLine_titleLine hleftName hrightName, by decide +kernel, fun line hline => ?_⟩
  obtain ⟨name, hname, hline⟩ := List.mem_flatMap.1 hline
  rcases List.mem_pair.1 hline with rfl | rfl
  · exact oneLine_featureLine (hnames name hname) hleftName hleft
  · exact oneLine_featureLine (hnames name hname) hrightName hright

/-- Cut at its line feeds, the overview is two lines, two more for every name, and nothing behind
the last line feed. The names are those of the left table in their order and then those that only
the right table has, and of the two lines for a name the first tells its feature in the left table
and the second in the right one. -/
theorem renderText_lines (hleftName : OneLine leftName) (hrightName : OneLine rightName)
    (hleft : left.OneLine) (hright : right.OneLine) :
    let names := left.names ++ right.names.filter (· ∉ left.names)
    let total := (left.names.toFinset ∪ right.names.toFinset).card
    ∃ lines : List String,
      (Comparison.of leftName left rightName right).renderText.toList.splitOn '\n' =
        lines.map String.toList ++ [[]] ∧
      lines.length = 2 + 2 * total ∧ names.length = total ∧
      ∀ (i : Nat) (name : String), names[i]? = some name → ∃ leftLine rightLine,
        lines[2 + 2 * i]? = some leftLine ∧ lines[3 + 2 * i]? = some rightLine ∧
          Tells name leftName left leftLine ∧ Tells name rightName right rightLine := by
  intro names total
  have hlength : names.length = total := length_joinedNames left right
  have hlines : (Comparison.of leftName left rightName right).textLines =
      (Comparison.of leftName left rightName right).titleLine :: headingLine ::
        names.flatMap fun name =>
          [featureLine name (.of leftName left), featureLine name (.of rightName right)] := by
    rw [textLines, featureNames_of]
    rfl
  refine ⟨_, Text.splitOn_lines (oneLine_textLines hleftName hrightName hleft hright), ?_,
    hlength, fun i name hname => ?_⟩
  · rw [hlines, List.length_cons, List.length_cons, length_flatMap_pair, hlength]
    omega
  · obtain ⟨hfirst, hsecond⟩ := getElem?_flatMap_pair
      (fun name => featureLine name (.of leftName left))
      (fun name => featureLine name (.of rightName right)) hname
    refine ⟨_, _, ?_, ?_, tells_featureLine name leftName left,
      tells_featureLine name rightName right⟩
    · rw [hlines, Nat.add_comm 2, List.getElem?_cons_succ, List.getElem?_cons_succ]
      exact hfirst
    · rw [hlines, Nat.add_comm 3, List.getElem?_cons_succ, List.getElem?_cons_succ]
      exact hsecond

/-- Pets by weight and kind. -/
def weighedPets : Table where
  index := [0, 1]
  columns := [⟨"weight", .numeric [some .two, none]⟩,
    ⟨"kind", .categorical [some "cat", some "guinea pig"]⟩]
  names_nodup := by decide
  length_columns := by decide

/-- Pets by the number of their kind and by colour. -/
def colouredPets : Table where
  index := [0]
  columns := [⟨"kind", .numeric [some .one]⟩, ⟨"colour", .categorical [none]⟩]
  names_nodup := by decide
  length_columns := by decide

/-- The second of three names has a line for its texts on the left and one for its numbers on the
right, and the third is lacking on the left. -/
theorem weighedPets_colouredPets_lines :
    OneLine "train" ∧ OneLine "test" ∧ weighedPets.OneLine ∧ colouredPets.OneLine ∧
      ∃ lines : List String, lines.length = 8 ∧
        (Comparison.of "train" weighedPets "test" colouredPets).renderText.toList.splitOn '\n' =
          lines.map String.toList ++ [[]] ∧
        (∃ line, lines[4]? = some line ∧ Tells "kind" "train" weighedPets line) ∧
        (∃ line, lines[5]? = some line ∧ Tells "kind" "test" colouredPets line) ∧
        ∃ line, lines[6]? = some line ∧ Tells "colour" "train" weighedPets line := by
  have hleft : weighedPets.OneLine := by
    refine ⟨by decide, ?_⟩
    simp [weighedPets, OneLine]
  have hright : colouredPets.OneLine := by
    refine ⟨by decide, ?_⟩
    simp [colouredPets]
  obtain ⟨lines, hcut, hlength, -, htells⟩ :=
    @renderText_lines "train" "test" weighedPets colouredPets (by decide) (by decide) hleft hright
  obtain ⟨kindLeft, kindRight, hkindLeft, hkindRight, htellsLeft, htellsRight⟩ :=
    htells 1 "kind" (by decide)
  obtain ⟨colourLeft, -, hcolour, -, htellsColour, -⟩ := htells 2 "colour" (by decide)
  refine ⟨by decide, by decide, hleft, hright, lines, ?_, hcut, ⟨_, hkindLeft, htellsLeft⟩,
    ⟨_, hkindRight, htellsRight⟩, _, hcolour, htellsColour⟩
  exact hlength.trans (by decide)

end Comparison

end Tableflow
