import Tableflow.Facets.Json
import Tableflow.Proofs.Double.Quotient
import Tableflow.Proofs.Statistics.Categorical
import Tableflow.Proofs.Statistics.Numeric
import Tableflow.Proofs.Table.RoundTrip

/-!
# Comparisons that come back from their texts

What comes back of a comparison is the comparison in which the optional statistics of numbers that
are not finite are absent (`Comparison.finite`). The shares of missing cells and the average lengths
stay, because they are finite in the comparison of any two tables whose rows and characters are
counted by words (`Table.Counted`).

That an integer or a text is read as it was written is proved; of a finite number it is assumed of
those in the comparison (`ReadsBack`). The main statement is `Comparison.comesBack`.
-/

namespace Tableflow

open Json (Value Tree Reals Decoded decodeText exactReal)

/-! ## Statistics that are not finite -/

theorem filter_isFinite_eq_self_iff {value : Option Double} :
    value.filter Double.isFinite = value ↔ ∀ x ∈ value, x.isFinite := by
  cases value <;> simp

namespace NumericStatistics

/-- The statistics without the optional ones that are not finite. -/
def finite (s : NumericStatistics) : NumericStatistics where
  count := s.count
  missing := s.missing
  missingRate := s.missingRate
  mean := s.mean.filter Double.isFinite
  variance := s.variance.filter Double.isFinite
  stdDev := s.stdDev.filter Double.isFinite
  min := s.min.filter Double.isFinite
  median := s.median.filter Double.isFinite
  max := s.max.filter Double.isFinite
  zeros := s.zeros

/-- The optional statistics. -/
def optionals (s : NumericStatistics) : List (Option Double) :=
  [s.mean, s.variance, s.stdDev, s.min, s.median, s.max]

/-- The numbers in the statistics. -/
def numbers (s : NumericStatistics) : List Double := s.missingRate :: s.optionals.filterMap id

/-- The counts in the statistics. -/
def counts (s : NumericStatistics) : List Nat := [s.count, s.missing, s.zeros]

theorem finite_eq_self_iff {s : NumericStatistics} :
    s.finite = s ↔ ∀ x ∈ s.optionals.filterMap id, x.isFinite := by
  have hoptionals : s.finite = s ↔ ∀ value ∈ s.optionals, value.filter Double.isFinite = value := by
    obtain ⟨count, missing, missingRate, mean, variance, stdDev, min, median, max, zeros⟩ := s
    simp [finite, optionals]
  simp only [hoptionals, filter_isFinite_eq_self_iff, List.mem_filterMap, id_eq]
  constructor
  · rintro h x ⟨value, hvalue, rfl⟩
    exact h _ hvalue x rfl
  · exact fun h value hvalue x hx => h x ⟨value, hvalue, hx⟩

end NumericStatistics

namespace CategoricalStatistics

/-- The numbers in the statistics. -/
def numbers (s : CategoricalStatistics) : List Double := s.missingRate :: s.avgLength.toList

/-- The counts in the statistics. -/
def counts (s : CategoricalStatistics) : List Nat :=
  [s.count, s.missing, s.unique, s.topFrequency] ++ s.frequencies.entries.map (·.2)

end CategoricalStatistics

namespace FeatureKind

/-- The statistics without the optional ones of numbers that are not finite. -/
def finite : FeatureKind → FeatureKind
  | .numeric s => .numeric s.finite
  | .categorical s => .categorical s

def numbers : FeatureKind → List Double
  | .numeric s => s.numbers
  | .categorical s => s.numbers

def counts : FeatureKind → List Nat
  | .numeric s => s.counts
  | .categorical s => s.counts

/-- The numbers that must not be left out. -/
def mandatory : FeatureKind → List Double
  | .numeric s => [s.missingRate]
  | .categorical s => s.numbers

theorem finite_eq_self_iff {k : FeatureKind} (h : ∀ x ∈ k.mandatory, x.isFinite) :
    k.finite = k ↔ ∀ x ∈ k.numbers, x.isFinite := by
  cases k with
  | categorical s => exact iff_of_true rfl h
  | numeric s =>
    rw [finite, FeatureKind.numeric.injEq, NumericStatistics.finite_eq_self_iff, numbers,
      NumericStatistics.numbers, List.forall_mem_cons]
    exact (and_iff_right (h _ List.mem_cons_self)).symm

end FeatureKind

namespace FeatureStatistics

def finite (f : FeatureStatistics) : FeatureStatistics := ⟨f.name, f.stats.finite⟩

theorem missingRate_mem_mandatory (f : FeatureStatistics) : f.missingRate ∈ f.stats.mandatory := by
  obtain ⟨name, _ | _⟩ := f <;> exact List.mem_cons_self

end FeatureStatistics

namespace DatasetStatistics

def finite (d : DatasetStatistics) : DatasetStatistics :=
  ⟨d.name, d.numRows, d.features.map FeatureStatistics.finite⟩

def numbers (d : DatasetStatistics) : List Double := d.features.flatMap (·.stats.numbers)

def counts (d : DatasetStatistics) : List Nat := d.numRows :: d.features.flatMap (·.stats.counts)

def mandatory (d : DatasetStatistics) : List Double := d.features.flatMap (·.stats.mandatory)

theorem finite_eq_self_iff {d : DatasetStatistics} (h : ∀ x ∈ d.mandatory, x.isFinite) :
    d.finite = d ↔ ∀ x ∈ d.numbers, x.isFinite := by
  have hfeatures : d.finite = d ↔ ∀ f ∈ d.features, f.stats.finite = f.stats := by
    obtain ⟨name, numRows, features⟩ := d
    rw [finite, DatasetStatistics.mk.injEq, eq_self_iff_true, eq_self_iff_true, true_and, true_and,
      map_eq_self_iff]
    refine forall₂_congr fun f hf => ?_
    obtain ⟨name, stats⟩ := f
    simp [FeatureStatistics.finite]
  rw [mandatory, List.forall_mem_flatMap] at h
  rw [hfeatures, numbers, List.forall_mem_flatMap]
  exact forall₂_congr fun f hf => FeatureKind.finite_eq_self_iff (h f hf)

end DatasetStatistics

namespace Comparison

/-- The comparison without the optional statistics of numbers that are not finite. -/
def finite (c : Comparison) : Comparison := ⟨c.left.finite, c.right.finite⟩

def numbers (c : Comparison) : List Double := c.left.numbers ++ c.right.numbers

def counts (c : Comparison) : List Nat := c.left.counts ++ c.right.counts

def mandatory (c : Comparison) : List Double := c.left.mandatory ++ c.right.mandatory

theorem finite_eq_self_iff {c : Comparison} (h : ∀ x ∈ c.mandatory, x.isFinite) :
    c.finite = c ↔ ∀ x ∈ c.numbers, x.isFinite := by
  obtain ⟨hleft, hright⟩ := List.forall_mem_append.1 h
  obtain ⟨left, right⟩ := c
  rw [finite, Comparison.mk.injEq, numbers, List.forall_mem_append,
    DatasetStatistics.finite_eq_self_iff hleft, DatasetStatistics.finite_eq_self_iff hright]

end Comparison

/-! ## Writing -/

theorem plain_real {x : Double} (h : x.isFinite) : (Value.real x).plain = .real x := if_pos h

theorem plainMembers_naturals (entries : List (String × Nat)) :
    Value.plainMembers (entries.map fun entry => (entry.1, Value.natural entry.2)) =
      entries.map fun entry => (entry.1, Value.natural entry.2) := by
  induction entries with
  | nil => rfl
  | cons entry rest ih =>
    rw [List.map_cons, Value.plainMembers, ih]
    rfl

theorem NumericStatistics.toMembers_finite {s : NumericStatistics} (h : s.missingRate.isFinite) :
    s.finite.toMembers = Value.plainMembers s.toMembers := by
  simp only [toMembers, finite, Value.plainMembers, plain_real h, plain_optional_real]
  rfl

theorem CategoricalStatistics.toMembers_plain {s : CategoricalStatistics}
    (h : ∀ x ∈ s.numbers, x.isFinite) : s.toMembers = Value.plainMembers s.toMembers := by
  obtain ⟨hrate, hlength⟩ := List.forall_mem_cons.1 h
  have hlength : s.avgLength.filter Double.isFinite = s.avgLength :=
    filter_isFinite_eq_self_iff.2 fun x hx => hlength x (Option.mem_toList.2 hx)
  have hfrequencies : (Value.object (s.frequencies.map Value.natural).entries).plain =
      .object (s.frequencies.map Value.natural).entries :=
    congrArg Value.object (plainMembers_naturals _)
  simp only [toMembers, Value.plainMembers, plain_real hrate, plain_optional_real,
    plain_optional_string, hlength, hfrequencies]
  rfl

theorem FeatureKind.toJson_finite {k : FeatureKind} (h : ∀ x ∈ k.mandatory, x.isFinite) :
    k.finite.toJson = k.toJson.plain := by
  cases k with
  | numeric s =>
    rw [finite, toJson, NumericStatistics.toMembers_finite (h _ List.mem_cons_self)]
    rfl
  | categorical s =>
    rw [finite, toJson, Value.plain, Value.plainMembers, ← CategoricalStatistics.toMembers_plain h]
    rfl

theorem FeatureStatistics.toJson_finite {f : FeatureStatistics}
    (h : ∀ x ∈ f.stats.mandatory, x.isFinite) : f.finite.toJson = f.toJson.plain := by
  simp [finite, toJson, Value.plain, Value.plainMembers, FeatureKind.toJson_finite h]

theorem DatasetStatistics.toJson_finite {d : DatasetStatistics}
    (h : ∀ x ∈ d.mandatory, x.isFinite) : d.finite.toJson = d.toJson.plain := by
  rw [mandatory, List.forall_mem_flatMap] at h
  have hfeatures : (d.features.map FeatureStatistics.finite).map FeatureStatistics.toJson =
      (d.features.map FeatureStatistics.toJson).map Value.plain := by
    rw [List.map_map, List.map_map, List.map_inj_left]
    exact fun f hf => FeatureStatistics.toJson_finite (h f hf)
  simp only [finite, toJson, hfeatures, Value.plain, Value.plainMembers, Value.plains_eq_map]
  rfl

theorem Comparison.toJson_finite {c : Comparison} (h : ∀ x ∈ c.mandatory, x.isFinite) :
    c.finite.toJson = c.toJson.plain := by
  obtain ⟨hleft, hright⟩ := List.forall_mem_append.1 h
  simp only [finite, toJson, Value.plain, Value.plainMembers,
    DatasetStatistics.toJson_finite hleft, DatasetStatistics.toJson_finite hright]

/-! ## Reading -/

namespace ReadsBack

variable {reals : Reals} {counts : List Nat} {numbers : List Double}

theorem asNatural_count (h : ReadsBack reals counts numbers) {n : Nat} (hn : n ∈ counts) :
    Tree.asNatural (Value.natural n).tree = some n :=
  Tree.asNatural_tree (h.ids n hn)

theorem ofTree_numeric {s : NumericStatistics} (h : ReadsBack reals s.counts s.numbers)
    (hfinite : s.missingRate.isFinite) :
    NumericStatistics.ofTree reals (Value.object s.toMembers).tree = some s.finite := by
  have hnames : ["count", "missing", "missing_rate", "mean", "variance", "std_dev", "min", "median",
      "max", "zeros"] = s.toMembers.map Prod.fst := rfl
  have hcount : ∀ n ∈ s.counts, Tree.asNatural (Value.natural n).tree = some n :=
    fun n => h.asNatural_count
  have hrate : Tree.asReal reals (Value.real s.missingRate).tree = some s.missingRate :=
    h.asReal_tree List.mem_cons_self hfinite
  have hoptional : ∀ value ∈ s.optionals,
      Tree.asOptional (Tree.asReal reals) (Value.optional .real value).tree =
        some (value.filter Double.isFinite) := fun value hvalue =>
    Tree.asOptional_real_tree fun x hx =>
      h.asReal_tree (List.mem_cons_of_mem _ (List.mem_filterMap.2 ⟨value, hvalue, hx⟩))
  simp only [NumericStatistics.counts, NumericStatistics.optionals, List.forall_mem_cons]
    at hcount hoptional
  simp only [NumericStatistics.ofTree, Tree.required_tree hnames (by decide),
    Tree.optional_tree hnames (by decide)]
  simp only [NumericStatistics.toMembers, List.getElem?_cons_zero, List.getElem?_cons_succ,
    Option.bind_some, Option.elim, hcount, hrate, hoptional]
  rfl

theorem ofTree_categorical {s : CategoricalStatistics} (h : ReadsBack reals s.counts s.numbers)
    (hfinite : ∀ x ∈ s.numbers, x.isFinite) :
    CategoricalStatistics.ofTree reals (Value.object s.toMembers).tree = some s := by
  have hnames : ["count", "missing", "missing_rate", "unique", "top", "top_frequency",
      "frequencies", "avg_length"] = s.toMembers.map Prod.fst := rfl
  have hcount : ∀ n ∈ s.counts, Tree.asNatural (Value.natural n).tree = some n :=
    fun n => h.asNatural_count
  obtain ⟨hcount, hfrequency⟩ := List.forall_mem_append.1 hcount
  simp only [List.forall_mem_cons] at hcount
  have hfrequencies : Tree.asDictionary Tree.asNatural
      (Value.object (s.frequencies.map Value.natural).entries).tree = some s.frequencies :=
    Tree.asDictionary_tree (List.forall_mem_map.1 hfrequency)
  have hrate : Tree.asReal reals (Value.real s.missingRate).tree = some s.missingRate :=
    h.asReal_tree List.mem_cons_self (hfinite _ List.mem_cons_self)
  have hlength : Tree.asOptional (Tree.asReal reals) (Value.optional .real s.avgLength).tree =
      some s.avgLength := by
    have hmem : ∀ x ∈ s.avgLength, x ∈ s.numbers :=
      fun x hx => List.mem_cons_of_mem _ (Option.mem_toList.2 hx)
    rw [Tree.asOptional_real_tree fun x hx => h.asReal_tree (hmem x hx)]
    exact congrArg some (filter_isFinite_eq_self_iff.2 fun x hx => hfinite x (hmem x hx))
  simp only [CategoricalStatistics.ofTree, Tree.required_tree hnames (by decide),
    Tree.optional_tree hnames (by decide)]
  simp only [CategoricalStatistics.toMembers, List.getElem?_cons_zero, List.getElem?_cons_succ,
    Option.bind_some, Option.elim, hcount, hrate, hfrequencies, hlength,
    Tree.asOptional_string_tree]
  rfl

section

variable {depth : Nat}

theorem isHoldable_optional (h : ReadsBack reals counts numbers) {value : Option Double}
    (hvalue : ∀ x ∈ value, x ∈ numbers) :
    Tree.isHoldable reals depth (Value.optional .real value).tree :=
  Tree.isHoldable_optional_real fun x hx => h.asReal_tree (hvalue x hx)

theorem isHoldable_numeric {s : NumericStatistics} (h : ReadsBack reals s.counts s.numbers) :
    ∀ m ∈ s.toMembers, Tree.isHoldable reals depth m.2.tree := by
  have hcount : ∀ n ∈ s.counts, Tree.isHoldable reals depth (Value.natural n).tree :=
    fun n hn => Tree.isHoldable_natural (h.ids n hn)
  have hrate : Tree.isHoldable reals depth (Value.real s.missingRate).tree :=
    Tree.isHoldable_real (h.asReal_tree List.mem_cons_self)
  have hoptional : ∀ value ∈ s.optionals,
      Tree.isHoldable reals depth (Value.optional .real value).tree := fun value hvalue =>
    h.isHoldable_optional fun x hx =>
      List.mem_cons_of_mem _ (List.mem_filterMap.2 ⟨value, hvalue, hx⟩)
  simp only [NumericStatistics.counts, NumericStatistics.optionals, List.forall_mem_cons]
    at hcount hoptional
  simp only [NumericStatistics.toMembers, List.forall_mem_cons, hcount, hrate, hoptional, true_and]
  simp

theorem isHoldable_categorical {s : CategoricalStatistics}
    (h : ReadsBack reals s.counts s.numbers) :
    ∀ m ∈ s.toMembers, Tree.isHoldable reals (depth + 1) m.2.tree := by
  have hcount : ∀ {depth : Nat}, ∀ n ∈ s.counts,
      Tree.isHoldable reals depth (Value.natural n).tree :=
    fun n hn => Tree.isHoldable_natural (h.ids n hn)
  have hfrequencies : Tree.isHoldable reals (depth + 1)
      (Value.object (s.frequencies.map Value.natural).entries).tree :=
    Tree.isHoldable_object (List.forall_mem_map.2 fun entry hentry =>
      hcount _ (List.mem_append_right _ (List.mem_map_of_mem hentry)))
  have hrate : Tree.isHoldable reals (depth + 1) (Value.real s.missingRate).tree :=
    Tree.isHoldable_real (h.asReal_tree List.mem_cons_self)
  have hlength : Tree.isHoldable reals (depth + 1) (Value.optional .real s.avgLength).tree :=
    h.isHoldable_optional fun x hx => List.mem_cons_of_mem _ (Option.mem_toList.2 hx)
  have hcount := (List.forall_mem_append.1 (@hcount (depth + 1))).1
  simp only [List.forall_mem_cons] at hcount
  simp only [CategoricalStatistics.toMembers, List.forall_mem_cons, hcount, hrate, hfrequencies,
    hlength, Tree.isHoldable_optional_string, true_and]
  simp

end

/-- The statistics are read by the decoder for the type that stands in front of them. -/
theorem ofTree_kind {k : FeatureKind} (h : ReadsBack reals k.counts k.numbers)
    (hfinite : ∀ x ∈ k.mandatory, x.isFinite) :
    FeatureKind.ofTree reals k.toJson.tree = some k.finite := by
  cases k with
  | numeric s =>
    have hkind : "kind" ∉ s.toMembers.map Prod.fst := by simp [NumericStatistics.toMembers]
    rw [FeatureKind.toJson, FeatureKind.ofTree, Tree.splitTag_tree hkind (isHoldable_numeric h)]
    simp only [Option.bind_eq_bind, Option.bind_some, if_pos,
      ofTree_numeric h (hfinite _ List.mem_cons_self)]
    rfl
  | categorical s =>
    have hkind : "kind" ∉ s.toMembers.map Prod.fst := by simp [CategoricalStatistics.toMembers]
    rw [FeatureKind.toJson, FeatureKind.ofTree, FeatureKind.depthLimit,
      Tree.splitTag_tree hkind (isHoldable_categorical h)]
    simp only [Option.bind_eq_bind, Option.bind_some, ofTree_categorical h hfinite]
    rfl

theorem ofTree_feature {f : FeatureStatistics} (h : ReadsBack reals f.stats.counts f.stats.numbers)
    (hfinite : ∀ x ∈ f.stats.mandatory, x.isFinite) :
    FeatureStatistics.ofTree reals f.toJson.tree = some f.finite := by
  simp only [FeatureStatistics.toJson, FeatureStatistics.ofTree,
    Tree.required_first (show "name" ≠ "stats" by decide),
    Tree.required_second (show "name" ≠ "stats" by decide), h.ofTree_kind hfinite]
  rfl

theorem ofTree_dataset {d : DatasetStatistics} (h : ReadsBack reals d.counts d.numbers)
    (hfinite : ∀ x ∈ d.mandatory, x.isFinite) :
    DatasetStatistics.ofTree reals d.toJson.tree = some d.finite := by
  rw [DatasetStatistics.mandatory, List.forall_mem_flatMap] at hfinite
  have hfeatures : Tree.asList (FeatureStatistics.ofTree reals)
      (Value.array (d.features.map FeatureStatistics.toJson)).tree =
        some (d.features.map FeatureStatistics.finite) :=
    Tree.asList_tree fun f hf => (h.mono
      (fun n hn => List.mem_cons_of_mem _ (List.mem_flatMap.2 ⟨f, hf, hn⟩))
      (fun x hx => List.mem_flatMap.2 ⟨f, hf, hx⟩)).ofTree_feature (hfinite f hf)
  have hnames : ["name", "num_rows", "features"] =
      [("name", Value.string d.name), ("num_rows", .natural d.numRows),
        ("features", .array (d.features.map FeatureStatistics.toJson))].map Prod.fst := rfl
  simp only [DatasetStatistics.toJson, DatasetStatistics.ofTree,
    Tree.required_tree hnames (by decide)]
  simp only [List.getElem?_cons_zero, List.getElem?_cons_succ, Option.bind_some,
    h.asNatural_count List.mem_cons_self, hfeatures]
  rfl

theorem ofTree_comparison {c : Comparison} (h : ReadsBack reals c.counts c.numbers)
    (hfinite : ∀ x ∈ c.mandatory, x.isFinite) :
    Comparison.ofTree reals c.toJson.tree = some c.finite := by
  obtain ⟨hleft, hright⟩ := append_iff.1 h
  obtain ⟨hleftFinite, hrightFinite⟩ := List.forall_mem_append.1 hfinite
  simp only [Comparison.toJson, Comparison.ofTree,
    Tree.required_first (show "left" ≠ "right" by decide),
    Tree.required_second (show "left" ≠ "right" by decide), hleft.ofTree_dataset hleftFinite,
    hright.ofTree_dataset hrightFinite]
  rfl

end ReadsBack

/-! ## The statistics of tables -/

theorem isFinite_missingRate {missing total : Nat} (h : missing ≤ total)
    (htotal : total < Json.wordLimit) : (missingRate missing total).isFinite := by
  have hword : total ≤ Double.maxWord := Nat.le_of_lt_succ htotal
  rw [missingRate]
  split
  · rfl
  · next hne => exact Double.isFinite_ofNat_div (h.trans hword) (Nat.pos_of_ne_zero hne) hword

namespace NumericStatistics

theorem le_length_of_mem_counts (values : List (Option Double)) :
    ∀ n ∈ (of values).counts, n ≤ values.length := by
  have hpresent : (values.filterMap id).length ≤ values.length := List.length_filterMap_le ..
  have hzeros : (of values).zeros ≤ (values.filterMap id).length :=
    (zeros_eq values).trans_le List.countP_le_length
  have hsum := count_add_missing values
  simp only [counts, List.forall_mem_cons, List.not_mem_nil, false_implies, implies_true, and_true]
  exact ⟨by omega, by omega, hzeros.trans hpresent⟩

theorem isFinite_missingRate_of {values : List (Option Double)}
    (h : values.length < Json.wordLimit) : (of values).missingRate.isFinite := by
  have hsum := count_add_missing values
  exact isFinite_missingRate (by omega) h

end NumericStatistics

theorem greatest_le {entries : List (String × Nat)} {n : Nat}
    (h : ∀ entry ∈ entries, entry.2 ≤ n) : (greatest entries).2 ≤ n := by
  rw [greatest]
  refine List.foldlRecOn (motive := fun (best : Option String × Nat) => best.2 ≤ n) entries _
    (Nat.zero_le n) fun best hbest entry hentry => ?_
  split
  · exact h entry hentry
  · exact hbest

namespace CategoricalStatistics

theorem le_length_of_mem_counts (values : List (Option String)) :
    ∀ n ∈ (of values).counts, n ≤ values.length := by
  have hpresent : (values.filterMap id).length ≤ values.length := List.length_filterMap_le ..
  have hfrequencies : ∀ entry ∈ (of values).frequencies.entries, entry.2 ≤ values.length := by
    rintro ⟨text, n⟩ hentry
    have hn : (of values).frequencies.frequency text = n := by
      rw [Dictionary.frequency, Dictionary.find?_eq_some_iff.2 hentry, Option.getD_some]
    rw [frequency_eq] at hn
    exact hn ▸ (List.count_le_length.trans hpresent)
  have hunique : (of values).unique ≤ values.length := by
    rw [unique_eq, toFinset_keys]
    exact (List.toFinset_card_le _).trans hpresent
  have htop : (of values).topFrequency ≤ values.length := greatest_le hfrequencies
  have hsum := count_add_missing values
  rw [counts, List.forall_mem_append, List.forall_mem_map]
  refine ⟨?_, hfrequencies⟩
  simp only [List.forall_mem_cons, List.not_mem_nil, false_implies, implies_true, and_true]
  exact ⟨by omega, by omega, hunique, htop⟩

theorem isFinite_of_mem_numbers {values : List (Option String)}
    (h : values.length < Json.wordLimit)
    (hcharacters : ((values.filterMap id).map String.length).sum < Json.wordLimit) :
    ∀ x ∈ (of values).numbers, x.isFinite := by
  have hle : ∀ n ∈ (of values).counts, n ≤ values.length := le_length_of_mem_counts values
  have hlength : (of values).avgLength = if 0 < (of values).count then
      some (Double.ofNat ((values.filterMap id).map String.length).sum /
        Double.ofNat (of values).count) else none := by
    rw [List.sum_eq_foldl, List.foldl_map]
    rfl
  rw [numbers, List.forall_mem_cons, hlength]
  have hmissing : (of values).missing ≤ values.length := by
    have hsum := count_add_missing values
    omega
  refine ⟨isFinite_missingRate hmissing h, fun x hx => ?_⟩
  rw [Option.mem_toList, Option.ite_none_right_eq_some] at hx
  obtain ⟨hpos, hx⟩ := hx
  obtain rfl := Option.some.inj hx
  exact Double.isFinite_ofNat_div (Nat.le_of_lt_succ hcharacters) hpos
    (Nat.le_of_lt_succ ((hle _ (by simp [counts])).trans_lt h))

end CategoricalStatistics

/-- How many characters the texts in the cells have. -/
def Cells.characters : Cells → Nat
  | .numeric _ => 0
  | .categorical values => ((values.filterMap id).map String.length).sum

/-- Words count the rows of a table and the characters of each of its columns. -/
structure Table.Counted (t : Table) : Prop where
  rows : t.numRows < Json.wordLimit
  characters : ∀ c ∈ t.columns, c.cells.characters < Json.wordLimit

namespace Table.Counted

variable {t : Table} (h : t.Counted) (name : String)
include h

theorem counts_lt : ∀ n ∈ (DatasetStatistics.of name t).counts, n < Json.wordLimit := by
  rw [DatasetStatistics.counts, List.forall_mem_cons, List.forall_mem_flatMap]
  refine ⟨h.rows, List.forall_mem_map.2 fun c hc n hn => lt_of_le_of_lt ?_ h.rows⟩
  have hlength := t.length_columns c hc
  obtain ⟨name, values | values⟩ := c
  · exact (NumericStatistics.le_length_of_mem_counts values n hn).trans_eq hlength
  · exact (CategoricalStatistics.le_length_of_mem_counts values n hn).trans_eq hlength

theorem mandatory_finite : ∀ x ∈ (DatasetStatistics.of name t).mandatory, x.isFinite := by
  rw [DatasetStatistics.mandatory, List.forall_mem_flatMap]
  refine List.forall_mem_map.2 fun c hc => ?_
  have hlength : c.length < Json.wordLimit := (t.length_columns c hc).trans_lt h.rows
  have hcharacters := h.characters c hc
  obtain ⟨name, values | values⟩ := c
  · exact List.forall_mem_singleton.2 (NumericStatistics.isFinite_missingRate_of hlength)
  · exact CategoricalStatistics.isFinite_of_mem_numbers hlength hcharacters

end Table.Counted

namespace Comparison

/-- The comparison of two tables comes back from its text, in which no share of missing cells is
left out. -/
theorem comesBack (reals : Reals) {left right : Table} (hleft : left.Counted)
    (hright : right.Counted) (leftName rightName : String)
    (hreads : ∀ x ∈ (of leftName left rightName right).numbers, x.isFinite →
      Spells (Tree.asReal reals) (Value.real x).compact x) :
    (∀ d ∈ (of leftName left rightName right).sides, ∀ f ∈ d.features, f.missingRate.isFinite) ∧
      ∀ write ∈ [Value.compact, Value.pretty],
        ComesBack (fun tree => Decoded.ofOption (ofTree reals tree)) toJson finite
          (of leftName left rightName right).numbers write (of leftName left rightName right) := by
  have hmandatory : ∀ x ∈ (of leftName left rightName right).mandatory, x.isFinite :=
    List.forall_mem_append.2 ⟨hleft.mandatory_finite leftName, hright.mandatory_finite rightName⟩
  have hcounts : ∀ n ∈ (of leftName left rightName right).counts, n < Json.wordLimit :=
    List.forall_mem_append.2 ⟨hleft.counts_lt leftName, hright.counts_lt rightName⟩
  refine ⟨?_, .of_tree ?_ (finite_eq_self_iff hmandatory) (toJson_finite hmandatory)⟩
  · intro d hd f hf
    refine hmandatory _ ?_
    rcases List.mem_pair.1 hd with rfl | rfl
    · exact List.mem_append_left _ (List.mem_flatMap.2 ⟨f, hf, f.missingRate_mem_mandatory⟩)
    · exact List.mem_append_right _ (List.mem_flatMap.2 ⟨f, hf, f.missingRate_mem_mandatory⟩)
  · rw [ReadsBack.ofTree_comparison ⟨hcounts, hreads⟩ hmandatory]
    rfl

/-- Three parcels, one of them without a known weight and one too heavy for the scale. -/
def parcels : Table where
  index := [0, 1, 2]
  columns :=
    [⟨"weight", .numeric [some .two, none, some (.infinity false)]⟩,
      ⟨"to", .categorical [some "Ö", some "\"\"", some "Ö"]⟩]
  names_nodup := by decide +kernel
  length_columns := by decide

/-- No parcels. -/
def noParcels : Table := ⟨[], [⟨"weight", .numeric []⟩], by decide, by decide⟩

theorem counted_parcels : parcels.Counted where
  rows := by decide
  characters := by decide +kernel

theorem counted_noParcels : noParcels.Counted where
  rows := by decide
  characters := by decide +kernel

theorem present_weights : NumericStatistics.present [some .two, none, some (.infinity false)] =
    [.two, .infinity false] :=
  List.mergeSort_of_pairwise (by decide)

/-- The comparison of all parcels with none comes back, and has changed. -/
theorem parcels_comesBack :
    decodeText (fun tree => (Decoded.ofOption (ofTree exactReal tree) : Decoded TableDefect _))
        (of "sent" parcels "lost" noParcels).toJson.pretty =
          .ok (of "sent" parcels "lost" noParcels).finite ∧
      (of "sent" parcels "lost" noParcels).finite ≠ of "sent" parcels "lost" noParcels := by
  have hfacts : (∀ x ∈ (of "sent" parcels "lost" noParcels).numbers, x.isFinite →
      Tree.asReal exactReal (Tree.read (Value.real x).compact.toList).1 = some x ∧
        (Tree.read (Value.real x).compact.toList).2.map Json.skipSpace = some []) ∧
      (of "sent" parcels "lost" noParcels).finite ≠ of "sent" parcels "lost" noParcels := by
    simp only [of, DatasetStatistics.of, parcels, noParcels, List.map_cons, List.map_nil,
      FeatureStatistics.of, NumericStatistics.of, present_weights]
    decide +kernel
  obtain ⟨hread, hchanged⟩ := hfacts
  obtain ⟨-, hback⟩ := comesBack exactReal counted_parcels counted_noParcels "sent" "lost"
    fun x hx hfinite => spells_iff.2 (hread x hx hfinite)
  exact ⟨(hback _ (by simp)).decoded, hchanged⟩

end Comparison

end Tableflow
