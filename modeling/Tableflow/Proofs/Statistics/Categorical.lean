import Mathlib.Algebra.BigOperators.Group.List.Basic
import Mathlib.Algebra.GroupWithZero.Nat
import Mathlib.Data.Finset.Card
import Tableflow.Facets.Statistics
import Tableflow.Proofs.Dictionary

/-!
# Categorical statistics

What the statistics of a categorical column say of its texts: the dictionary of frequencies counts
each of them (`CategoricalStatistics.frequency_eq`), its keys are the texts that occur, and its
numbers add up to how many there are (`CategoricalStatistics.count_eq`). All of this is put together
from the statistics of two columns, if their cells together are those of the whole
(`CategoricalStatistics.joined_of_perm`).
-/

namespace Tableflow

/-! ## Counting texts -/

namespace Dictionary

variable {d : Dictionary Nat} {texts : List String}

/-- How often a text is counted; one that is no key is counted no times. -/
def frequency (d : Dictionary Nat) (text : String) : Nat := (d.find? text).getD 0

/-- How many texts are counted. -/
def total (d : Dictionary Nat) : Nat := (d.entries.map (·.2)).sum

theorem frequency_tally (d : Dictionary Nat) (text other : String) :
    (d.tally text).frequency other = d.frequency other + if other = text then 1 else 0 := by
  rw [frequency, tally, find?_insert]
  split
  · next h =>
    rw [h]
    rfl
  · rfl

/-- A number takes the place of the one that stood under its key. -/
theorem sum_insertEntry {entries : List (String × Nat)}
    (h : entries.Pairwise fun a b => a.1 < b.1) (key : String) (value : Nat) :
    ((insertEntry key value entries).map (·.2)).sum + (entries.lookup key).getD 0 =
      (entries.map (·.2)).sum + value := by
  induction entries with
  | nil => simp [insertEntry]
  | cons first rest ih =>
    obtain ⟨k, v⟩ := first
    obtain ⟨hfirst, hrest⟩ := List.pairwise_cons.1 h
    rw [insertEntry, List.lookup_cons]
    split
    · next hlt =>
      -- the keys ascend, so that a key below the first one is none of them
      have hnone : rest.lookup key = none := Option.eq_none_iff_forall_ne_some.2 fun v hv => by
        have hmem := (lookup_eq_some_iff (nodup_of_ascending hrest)).1 hv
        exact String.lt_irrefl key (String.lt_trans hlt (hfirst _ hmem))
      have hne : key ≠ k := String.ne_of_lt hlt
      simp only [beq_eq_false_iff_ne.2 hne, hnone, List.map_cons, List.sum_cons, Option.getD_none]
      omega
    · split
      · next heq =>
        simp only [heq, beq_self_eq_true, List.map_cons, List.sum_cons, Option.getD_some]
        omega
      · next hne =>
        have ih := ih hrest
        simp only [beq_eq_false_iff_ne.2 hne, List.map_cons, List.sum_cons]
        omega

theorem total_tally (d : Dictionary Nat) (text : String) :
    (d.tally text).total = d.total + 1 := by
  have hsum := sum_insertEntry d.ascending text (d.frequency text + 1)
  have hfrequency : (d.entries.lookup text).getD 0 = d.frequency text := rfl
  rw [hfrequency] at hsum
  have htotal : (d.tally text).total =
      ((insertEntry text (d.frequency text + 1) d.entries).map (·.2)).sum := rfl
  rw [htotal, total]
  omega

theorem foldl_tally_concat (texts : List String) (text : String) :
    (texts ++ [text]).foldl tally empty = (texts.foldl tally empty).tally text :=
  List.foldl_concat ..

theorem frequency_foldl_tally (texts : List String) (text : String) :
    (texts.foldl tally empty).frequency text = texts.count text := by
  induction texts using List.reverseRecOn with
  | nil => rfl
  | append_singleton front last ih =>
    rw [foldl_tally_concat, frequency_tally, ih, List.count_append, List.count_singleton]
    simp only [beq_iff_eq, eq_comm (a := text)]

theorem mem_keys_foldl_tally {text : String} :
    text ∈ (texts.foldl tally empty).keys ↔ text ∈ texts := by
  induction texts using List.reverseRecOn with
  | nil => rfl
  | append_singleton front last ih =>
    rw [foldl_tally_concat, tally, mem_keys_insert, ih, List.mem_append, List.mem_singleton,
      or_comm]

theorem total_foldl_tally (texts : List String) :
    (texts.foldl tally empty).total = texts.length := by
  induction texts using List.reverseRecOn with
  | nil => rfl
  | append_singleton front last ih =>
    rw [foldl_tally_concat, total_tally, ih, List.length_append, List.length_singleton]

theorem find?_foldl_tally (texts : List String) (text : String) :
    (texts.foldl tally empty).find? text = if text ∈ texts then some (texts.count text) else none := by
  have hfrequency := frequency_foldl_tally texts text
  rw [frequency] at hfrequency
  split
  · next hmem =>
    obtain ⟨n, hn⟩ := mem_keys_iff.1 (mem_keys_foldl_tally.2 hmem)
    rw [hn, Option.getD_some] at hfrequency
    rw [hn, hfrequency]
  · next hmem =>
    have hkey : text ∉ (texts.foldl tally empty).keys := mt mem_keys_foldl_tally.1 hmem
    rw [mem_keys_iff, not_exists] at hkey
    exact Option.eq_none_iff_forall_ne_some.2 hkey

end Dictionary

/-! ## The statistics of some texts -/

namespace CategoricalStatistics

variable {values xs ys : List (Option String)}

theorem frequency_eq (values : List (Option String)) (text : String) :
    (of values).frequencies.frequency text = (values.filterMap id).count text :=
  Dictionary.frequency_foldl_tally ..

theorem toFinset_keys (values : List (Option String)) :
    (of values).frequencies.keys.toFinset = (values.filterMap id).toFinset := by
  ext text
  rw [List.mem_toFinset, List.mem_toFinset]
  exact Dictionary.mem_keys_foldl_tally

theorem count_eq (values : List (Option String)) :
    (of values).count = (values.filterMap id).length := by
  rw [← Dictionary.total_foldl_tally, Dictionary.total, List.sum_eq_foldl, List.foldl_map]
  rfl

theorem count_add_missing (values : List (Option String)) :
    (of values).count + (of values).missing = values.length := by
  have hle : (of values).count ≤ values.length :=
    le_of_eq_of_le (count_eq values) (List.length_filterMap_le ..)
  exact Nat.add_sub_cancel' hle

theorem unique_eq (values : List (Option String)) :
    (of values).unique = (of values).frequencies.keys.toFinset.card := by
  rw [List.toFinset_card_of_nodup (of values).frequencies.nodup_keys, Dictionary.keys,
    List.length_map]
  rfl

/-! ## Two parts of some texts -/

/-- The statistics of some texts are put together from those of two parts of their cells. -/
structure Joined (a b whole : CategoricalStatistics) : Prop where
  count : whole.count = a.count + b.count
  missing : whole.missing = a.missing + b.missing
  frequency : ∀ text, whole.frequencies.frequency text =
    a.frequencies.frequency text + b.frequencies.frequency text
  unique : whole.unique = (a.frequencies.keys.toFinset ∪ b.frequencies.keys.toFinset).card

theorem joined_of_perm (h : (xs ++ ys).Perm values) : Joined (of xs) (of ys) (of values) := by
  have hpresent := h.filterMap id
  rw [List.filterMap_append] at hpresent
  have hcount : (of values).count = (of xs).count + (of ys).count := by
    rw [count_eq, count_eq, count_eq, ← List.length_append, hpresent.length_eq]
  have hlength := h.length_eq
  rw [List.length_append] at hlength
  refine ⟨hcount, ?_, fun text => ?_, ?_⟩
  · have hxs := count_add_missing xs
    have hys := count_add_missing ys
    have hvalues := count_add_missing values
    omega
  · rw [frequency_eq, frequency_eq, frequency_eq, ← List.count_append, hpresent.count_eq]
  · rw [unique_eq, toFinset_keys, toFinset_keys, toFinset_keys, ← List.toFinset_append,
      List.toFinset_eq_of_perm _ _ hpresent]

end CategoricalStatistics

end Tableflow
