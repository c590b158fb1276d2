import Tableflow.Proofs.Csv.Parsing
import Tableflow.Proofs.Decimal.Reader
import Tableflow.Proofs.Except
import Tableflow.Proofs.Statistics.Numeric

/-!
# Not-a-number in delimited text

A field that spells not-a-number is read as a missing cell only if it is `NaN` or `nan`, which are
missing markers. Any other case or sign makes a number of it, in a column whose other fields are
missing or numbers. So a table that is parsed is free of not-a-number just if no numeric column has
such a field (`freeOfNaN_iff`), and one with the field `NAN` is not (`capitals_not_freeOfNaN`). Since
the total order puts not-a-numbers first or last, they show as the least or the greatest number of
their column.
-/

namespace Tableflow

/-! ## Extremes -/

namespace Double

variable {x y : Double}

theorem key_of_negative (h : x.isNegative = true) : x.key = -1 - x.magnitude := if_pos h

theorem key_of_positive (h : x.isNegative = false) : x.key = x.magnitude :=
  if_neg (Bool.not_eq_true _ ▸ h)

/-- The not-a-numbers are what stands beyond the infinities. -/
theorem isNaN_iff_key :
    x.isNaN = true ↔ (infinityBits.toNat : Int) < x.key ∨ x.key < -1 - infinityBits.toNat := by
  rw [isNaN, decide_eq_true_eq]
  cases hsign : x.isNegative with
  | true =>
    rw [key_of_negative hsign]
    omega
  | false =>
    rw [key_of_positive hsign]
    omega

/-- What stands behind a positive not-a-number is one. -/
theorem isNaN_of_le (hx : x.isNaN = true) (hsign : x.isNegative = false)
    (h : x.totalLE y = true) : y.isNaN = true := by
  rw [isNaN_iff_key, key_of_positive hsign] at hx
  rw [totalLE, decide_eq_true_eq, key_of_positive hsign] at h
  rw [isNaN_iff_key]
  omega

/-- What stands before a negative not-a-number is one. -/
theorem isNaN_of_ge (hx : x.isNaN = true) (hsign : x.isNegative = true)
    (h : y.totalLE x = true) : y.isNaN = true := by
  rw [isNaN_iff_key, key_of_negative hsign] at hx
  rw [totalLE, decide_eq_true_eq, key_of_negative hsign] at h
  rw [isNaN_iff_key]
  omega

end Double

/-- The extremes of some cells are numbers just if all that is in the cells are. -/
theorem NumericStatistics.isNaN_extremes_iff (values : List (Option Double)) :
    (∀ x, (of values).min = some x ∨ (of values).max = some x → x.isNaN = false) ↔
      ∀ x, some x ∈ values → x.isNaN = false := by
  have hmin := extreme_min values
  have hmax := extreme_max values
  have hmem {x : Double} : x ∈ values.filterMap id ↔ some x ∈ values := by simp
  constructor
  · intro h x hx
    rw [Bool.eq_false_iff]
    intro hnan
    cases hsign : x.isNegative with
    | true =>
      obtain ⟨m, hm, hle⟩ := hmin.exists_le (hmem.2 hx)
      exact absurd (Double.isNaN_of_ge hnan hsign hle) (by simp [h m (.inl hm)])
    | false =>
      obtain ⟨m, hm, hle⟩ := hmax.exists_le (hmem.2 hx)
      exact absurd (Double.isNaN_of_le hnan hsign hle) (by simp [h m (.inr hm)])
  · rintro h x (hx | hx)
    · rw [hx, Extreme.some_iff] at hmin
      exact h x (hmem.1 hmin.1)
    · rw [hx, Extreme.some_iff] at hmax
      exact h x (hmem.1 hmax.1)

/-- None of the numbers of a table is not-a-number. -/
def Table.FreeOfNaN (t : Table) : Prop :=
  ∀ column ∈ t.columns, ∀ x, .numeric (some x) ∈ column.cells.toList → x.isNaN = false

/-- None of the least and greatest numbers of some columns is not-a-number. -/
def DatasetStatistics.FreeOfNaN (d : DatasetStatistics) : Prop :=
  ∀ f ∈ d.features, ∀ s, f.numeric? = some s →
    ∀ x, s.min = some x ∨ s.max = some x → x.isNaN = false

/-- A not-a-number in a table shows in its statistics. -/
theorem DatasetStatistics.freeOfNaN_of (name : String) (t : Table) :
    (of name t).FreeOfNaN ↔ t.FreeOfNaN := by
  rw [FreeOfNaN, Table.FreeOfNaN, of, List.forall_mem_map]
  refine forall₂_congr fun column _ => ?_
  obtain ⟨_, cells⟩ := column
  cases cells with
  | numeric values =>
    simpa [FeatureStatistics.of, FeatureStatistics.numeric?, Cells.toList] using
      NumericStatistics.isNaN_extremes_iff values
  | categorical values => simp [FeatureStatistics.of, FeatureStatistics.numeric?, Cells.toList]

/-! ## Fields -/

namespace Csv

open Decimal (SpellsNaN)

/-- Two of the missing markers spell not-a-number. -/
theorem mem_missingMarkers_iff {text : String} (h : SpellsNaN text) :
    text ∈ missingMarkers ↔ text = "NaN" ∨ text = "nan" := by
  constructor
  · intro hmem
    simp only [missingMarkers, List.mem_cons, List.not_mem_nil, or_false] at hmem
    rcases hmem with rfl | rfl | rfl | rfl | rfl
    · exact absurd h (by decide)
    · exact absurd h (by decide)
    · exact .inl rfl
    · exact .inr rfl
    · exact absurd h (by decide)
  · rintro (rfl | rfl) <;> decide

/-- A cell of a numeric column is free of not-a-number just if its field spells none but for the
two missing markers. -/
theorem Spelled.isNaN_iff {text : String} {value : Option Double}
    (h : Spelled text (.numeric value)) :
    (SpellsNaN text → text = "NaN" ∨ text = "nan") ↔ ∀ x, value = some x → x.isNaN = false := by
  cases h with
  | missingNumber hmarker =>
    exact iff_of_true (fun h => (mem_missingMarkers_iff h).1 hmarker) fun _ h => nomatch h
  | @number x hmarker hx =>
    have hspells : SpellsNaN text ↔ x.isNaN = true := by
      rw [← Decimal.exists_read_isNaN_iff, hx]
      simp
    constructor
    · intro h y hy
      obtain rfl := Option.some.inj hy
      rw [Bool.eq_false_iff]
      intro hnan
      have hspelled := hspells.2 hnan
      exact hmarker ((mem_missingMarkers_iff hspelled).2 (h hspelled))
    · intro h hspelled
      have hnan := hspells.1 hspelled
      rw [h x rfl] at hnan
      cases hnan

/-! ## Tables -/

section

variable {content : String} {delimiter : Char} {header : List Char} {lines : List (List Char)}
  {t : Table}

/-- A table that is parsed holds what stands in the lines of the text. -/
theorem exists_tableOf (h : parse content delimiter = .ok t) :
    ∃ header lines, filledLines content = header :: lines ∧ TableOf delimiter header lines t := by
  cases hlines : filledLines content with
  | nil =>
    have hempty : Flawed delimiter (filledLines content) .emptyText := hlines ▸ .empty
    rw [parse_of_flawed hempty] at h
    cases h
  | cons header lines =>
    rcases even_or_uneven delimiter header lines with
      hwidths | ⟨front, line, back, rfl, hfront, hline⟩
    · rw [parse_of_even hlines hwidths] at h
      have hsheet := (sheetOf delimiter header lines).admitted_withIndex.keeps t h
      exact ⟨header, lines, rfl, tableOf_of_sheet hwidths hsheet⟩
    · have huneven : Flawed delimiter (header :: (front ++ line :: back)) _ :=
        .uneven hfront hline
      rw [← hlines] at huneven
      rw [parse_of_flawed huneven] at h
      cases h

theorem forall_mem_iff_of_forall₂ {α β : Type} {p : α → Prop} {q : β → Prop} {as : List α}
    {bs : List β} (h : List.Forall₂ (fun a b => p a ↔ q b) as bs) :
    (∀ a ∈ as, p a) ↔ ∀ b ∈ bs, q b := by
  induction h with
  | nil => simp
  | cons hhead _ ih => rw [List.forall_mem_cons, List.forall_mem_cons, hhead, ih]

/-- A column is free of not-a-number just if it is categorical or its fields spell none but for the
two missing markers. -/
theorem TableOf.column_freeOfNaN_iff (ht : TableOf delimiter header lines t) {c : Nat}
    {column : Column} (hcolumn : t.columns[c]? = some column) :
    (∀ x, .numeric (some x) ∈ column.cells.toList → x.isNaN = false) ↔
      (column.columnType = .numeric → ∀ line ∈ lines, ∀ text,
        (fieldTexts delimiter line)[c]? = some text → SpellsNaN text →
          text = "NaN" ∨ text = "nan") := by
  have hcells := ht.cells c column hcolumn
  obtain ⟨name, cells⟩ := column
  cases cells with
  | categorical values =>
    simp [Cells.toList, Column.columnType, Cells.columnType]
  | numeric values =>
    have hvalues : List.Forall₂ (fun line value =>
        (∀ text, (fieldTexts delimiter line)[c]? = some text → SpellsNaN text →
          text = "NaN" ∨ text = "nan") ↔ ∀ x, value = some x → x.isNaN = false) lines values := by
      refine (List.forall₂_map_right_iff.1 hcells).imp ?_
      rintro line value ⟨text, htext, hspelled⟩
      simp only [htext, Option.some_inj, forall_eq']
      exact hspelled.isNaN_iff
    have htype : Column.columnType ⟨name, .numeric values⟩ = .numeric := rfl
    rw [forall_prop_of_true htype, forall_mem_iff_of_forall₂ hvalues]
    simp only [Cells.toList, List.mem_map, Cell.numeric.injEq, exists_eq_right]
    exact ⟨fun h value hvalue x hx => h x (hx ▸ hvalue), fun h x hx => h _ hx x rfl⟩

end

/-- A table that is parsed is free of not-a-number just if the fields of its numeric columns spell
none but for the two missing markers. Where one gets in, it is the least or the greatest number of a
column. -/
theorem freeOfNaN_iff {content : String} {delimiter : Char} {t : Table}
    (h : parse content delimiter = .ok t) (name : String) :
    (t.FreeOfNaN ↔
      ∀ (c : Nat) (column : Column), t.columns[c]? = some column → column.columnType = .numeric →
        ∀ line ∈ (filledLines content).tail, ∀ text, (fieldTexts delimiter line)[c]? = some text →
          SpellsNaN text → text = "NaN" ∨ text = "nan") ∧
      (t.FreeOfNaN ↔ (DatasetStatistics.of name t).FreeOfNaN) := by
  refine ⟨?_, (DatasetStatistics.freeOfNaN_of name t).symm⟩
  obtain ⟨header, lines, hlines, ht⟩ := exists_tableOf h
  rw [hlines, List.tail_cons]
  constructor
  · intro hfree c column hcolumn
    exact (ht.column_freeOfNaN_iff hcolumn).1 (hfree column (List.mem_of_getElem? hcolumn))
  · intro hfields column hmem
    obtain ⟨c, hcolumn⟩ := List.mem_iff_getElem?.1 hmem
    exact (ht.column_freeOfNaN_iff hcolumn).2 (hfields c column hcolumn)

theorem exists_parse_eq_ok {content : String} {delimiter : Char} {columns : List Column}
    (h : (parse content delimiter).toOption.map Table.columns = some columns) :
    ∃ t, parse content delimiter = .ok t ∧ t.columns = columns :=
  exists_of_toOption_map h

/-- A marked cell is missing. -/
theorem marker_freeOfNaN :
    ∃ t, parse "a\nNaN\n-0\n" ',' = .ok t ∧ t.FreeOfNaN ∧
      (DatasetStatistics.of "a" t).FreeOfNaN := by
  obtain ⟨t, ht, -⟩ : ∃ t, parse "a\nNaN\n-0\n" ',' = .ok t ∧
      t.columns = [⟨"a", .numeric [none, some .negZero]⟩] :=
    exists_parse_eq_ok (by decide +kernel)
  obtain ⟨hfields, hextremes⟩ := freeOfNaN_iff ht "a"
  have htexts : ∀ line ∈ (filledLines "a\nNaN\n-0\n").tail, ∀ text ∈ fieldTexts ',' line,
      SpellsNaN text → text = "NaN" ∨ text = "nan" := by
    decide +kernel
  have hfree := hfields.2 fun _ _ _ _ line hline text htext =>
    htexts line hline text (List.mem_of_getElem? htext)
  exact ⟨t, ht, hfree, hextremes.1 hfree⟩

/-- A cell in capitals is a number that is not one. -/
theorem capitals_not_freeOfNaN :
    ∃ t, parse "a\nNAN\n" ',' = .ok t ∧ ¬t.FreeOfNaN := by
  obtain ⟨t, ht, hcolumns⟩ : ∃ t, parse "a\nNAN\n" ',' = .ok t ∧
      t.columns = [⟨"a", .numeric [some (.nan false)]⟩] :=
    exists_parse_eq_ok (by decide +kernel)
  refine ⟨t, ht, fun hfree => ?_⟩
  have hnumber : (Double.nan false).isNaN = false :=
    hfree ⟨"a", .numeric [some (.nan false)]⟩ (by simp [hcolumns]) _ (by simp [Cells.toList])
  rw [Double.isNaN_nan] at hnumber
  cases hnumber

end Csv

end Tableflow
