import Tableflow.Proofs.Statistics.Categorical
import Tableflow.Proofs.Statistics.Ranks
import Tableflow.Proofs.Text.Bytes

/-!
# The most frequent text

The entries of a dictionary of frequencies are gone through once, in the order of their texts, and
the first one with the greatest number is kept (`Leads`). Since texts are ordered like their bytes,
it is the text whose bytes come first among the most frequent ones (`Leading`). The main statement
is `CategoricalStatistics.describes_texts`, which tells all that the statistics of a categorical
column hold.
-/

namespace Tableflow

/-! ## The first greatest entry -/

/-- The first of the entries with the greatest number, if there is one above zero. -/
inductive Leads : List (String × Nat) → Option String × Nat → Prop
  | absent {entries : List (String × Nat)} :
    (∀ entry ∈ entries, entry.2 = 0) → Leads entries (none, 0)
  | present {front back : List (String × Nat)} {text : String} {n : Nat} :
    0 < n → (∀ entry ∈ front, entry.2 < n) → (∀ entry ∈ back, entry.2 ≤ n) →
    Leads (front ++ (text, n) :: back) (some text, n)

/-- One entry more leads only if its number is greater. -/
theorem Leads.snoc {front : List (String × Nat)} {best : Option String × Nat}
    (h : Leads front best) (last : String × Nat) :
    Leads (front ++ [last]) (if best.2 < last.2 then (some last.1, last.2) else best) := by
  split
  · next hlt =>
    refine .present (Nat.zero_lt_of_lt hlt) (fun entry hentry => ?_) (by simp)
    cases h with
    | absent hzero => exact (hzero entry hentry).trans_lt hlt
    | @present front back text n _ hfront hback =>
      have hlt : n < last.2 := hlt
      rcases List.mem_append.1 hentry with hentry | hentry
      · exact (hfront entry hentry).trans hlt
      · rcases List.mem_cons.1 hentry with rfl | hentry
        · exact hlt
        · exact (hback entry hentry).trans_lt hlt
  · next hle =>
    have hle := Nat.not_lt.1 hle
    cases h with
    | absent hzero =>
      refine .absent (List.forall_mem_append.2 ⟨hzero, ?_⟩)
      simpa using hle
    | present hpos hfront hback =>
      rw [List.append_assoc, List.cons_append]
      refine .present hpos hfront (List.forall_mem_append.2 ⟨hback, ?_⟩)
      simpa using hle

theorem leads_greatest (entries : List (String × Nat)) : Leads entries (greatest entries) := by
  induction entries using List.reverseRecOn with
  | nil => exact .absent (by simp)
  | append_singleton front last ih =>
    have hstep : greatest (front ++ [last]) =
        if (greatest front).2 < last.2 then (some last.1, last.2) else greatest front :=
      List.foldl_concat ..
    rw [hstep]
    exact ih.snoc last

theorem Leads.none_iff {entries : List (String × Nat)} {best : Option String × Nat}
    (h : Leads entries best) : best.1 = none ↔ ∀ entry ∈ entries, entry.2 = 0 := by
  cases h with
  | absent hzero => exact iff_of_true rfl hzero
  | @present front back text n hpos _ _ =>
    refine iff_of_false (fun h => nomatch h) fun hzero => ?_
    have hn : n = 0 := hzero (text, n) (by simp)
    omega

/-- Among entries in ascending order of their texts, the one that leads has the first text of all
that have its number. -/
theorem Leads.mem_and_le {entries : List (String × Nat)} {text : String} {n : Nat}
    (h : Leads entries (some text, n)) (hascending : entries.Pairwise fun a b => a.1 < b.1) :
    (text, n) ∈ entries ∧
      ∀ entry ∈ entries, entry.2 ≤ n ∧ (entry.2 = n → text ≤ entry.1) := by
  cases h with
  | @present front back _ _ _ hfront hback =>
    obtain ⟨-, hrest, -⟩ := List.pairwise_append.1 hascending
    refine ⟨by simp, List.forall_mem_append.2 ⟨fun entry hentry => ?_,
      List.forall_mem_cons.2 ⟨⟨le_rfl, fun _ => String.le_refl _⟩, fun entry hentry => ?_⟩⟩⟩
    · have hlt := hfront entry hentry
      exact ⟨hlt.le, fun heq => absurd heq hlt.ne⟩
    · have hlt : text < entry.1 := (List.pairwise_cons.1 hrest).1 entry hentry
      exact ⟨hback entry hentry, fun _ => String.not_lt.1 (String.lt_asymm hlt)⟩

/-! ## The statistics of some texts -/

/-- A text is among the most frequent of some texts, and of these its bytes come first. -/
structure Leading (texts : List String) (text : String) : Prop where
  mem : text ∈ texts
  most : ∀ other ∈ texts, texts.count other ≤ texts.count text
  first : ∀ other ∈ texts, texts.count other = texts.count text →
    Text.bytes text ≤ Text.bytes other

namespace CategoricalStatistics

variable (values : List (Option String))

theorem find?_frequencies {text : String} {n : Nat} :
    (of values).frequencies.find? text = some n ↔
      text ∈ values.filterMap id ∧ n = (values.filterMap id).count text := by
  have hfind : (of values).frequencies.find? text = _ := Dictionary.find?_foldl_tally ..
  rw [hfind]
  split
  · next hmem => rw [and_iff_right hmem, Option.some_inj, eq_comm]
  · next hmem => exact iff_of_false (fun h => nomatch h) fun h => hmem h.1

theorem mem_entries {text : String} {n : Nat} :
    (text, n) ∈ (of values).frequencies.entries ↔
      text ∈ values.filterMap id ∧ n = (values.filterMap id).count text := by
  rw [← find?_frequencies, Dictionary.find?_eq_some_iff]

theorem leads_top :
    Leads (of values).frequencies.entries ((of values).top, (of values).topFrequency) :=
  leads_greatest _

theorem leading_of_top {text : String} (h : (of values).top = some text) :
    Leading (values.filterMap id) text ∧
      (of values).topFrequency = (values.filterMap id).count text := by
  have hleads := leads_top values
  rw [h] at hleads
  obtain ⟨hmem, hle⟩ := hleads.mem_and_le (of values).frequencies.ascending
  obtain ⟨htext, hcount⟩ := (mem_entries values).1 hmem
  rw [hcount] at hle
  refine ⟨⟨htext, fun other hother => ?_, fun other hother heq => ?_⟩, hcount⟩
  · exact (hle _ ((mem_entries values).2 ⟨hother, rfl⟩)).1
  · exact Text.bytes_le_iff.2 ((hle _ ((mem_entries values).2 ⟨hother, rfl⟩)).2 heq)

theorem top_eq_none_iff : (of values).top = none ↔ values.filterMap id = [] := by
  rw [(leads_top values).none_iff, List.eq_nil_iff_forall_not_mem]
  constructor
  · intro hzero text hmem
    have hcount := hzero _ ((mem_entries values).2 ⟨hmem, rfl⟩)
    exact List.count_eq_zero.1 hcount hmem
  · rintro hnone ⟨text, n⟩ hentry
    exact absurd ((mem_entries values).1 hentry).1 (hnone text)

theorem topFrequency_of_absent (h : values.filterMap id = []) : (of values).topFrequency = 0 := by
  simp only [of, h]
  rfl

theorem avgLength_eq :
    (of values).avgLength =
      if 0 < (of values).count then
        some (Double.ofNat ((values.filterMap id).map fun text => text.toList.length).sum /
          Double.ofNat (of values).count)
      else none := by
  simp only [String.length_toList, List.sum_eq_foldl, List.foldl_map]
  rfl

/-- Statistics tell how many of some cells are there, how often each text is among them and which
one the most often, and how long the texts are on average. -/
structure Describes (values : List (Option String)) (s : CategoricalStatistics) : Prop where
  frequencies : ∀ text n, s.frequencies.find? text = some n ↔
    text ∈ values.filterMap id ∧ n = (values.filterMap id).count text
  count : s.count = (values.filterMap id).length
  count_add_missing : s.count + s.missing = values.length
  unique : s.unique = (values.filterMap id).toFinset.card
  top : ∀ text, s.top = some text →
    Leading (values.filterMap id) text ∧ s.topFrequency = (values.filterMap id).count text
  top_absent : s.top = none ↔ values.filterMap id = []
  topFrequency_absent : s.top = none → s.topFrequency = 0
  avgLength : s.avgLength =
    if 0 < s.count then
      some (Double.ofNat ((values.filterMap id).map fun text => text.toList.length).sum /
        Double.ofNat s.count)
    else none

/-- The statistics of some cells describe their texts. The missing cells are told by a difference
that is not below zero. -/
theorem describes_texts :
    Describes values (of values) ∧
      difference? values.length (of values).count = some (of values).missing := by
  refine ⟨?_, by rw [← count_add_missing, difference?_add]⟩
  refine ⟨fun _ _ => find?_frequencies values, count_eq values, count_add_missing values, ?_,
    fun _ => leading_of_top values, top_eq_none_iff values, ?_, avgLength_eq values⟩
  · rw [unique_eq, toFinset_keys]
  · intro h
    exact topFrequency_of_absent values ((top_eq_none_iff values).1 h)

/-- Of two texts with the same frequency the first one is told, wherever they stand. -/
example : (of [some "b", some "a", none, some "b", some "a"]).top = some "a" := by
  decide +kernel

end CategoricalStatistics

end Tableflow
