import Mathlib.Data.List.Induction
import Mathlib.Data.List.Nodup
import Tableflow.Dictionary

/-!
# Laws of dictionaries

A dictionary is told by its look-ups (`ext_find?`), and a look-up finds exactly the entries that are
listed (`find?_eq_some_iff`). In the dictionary of a list of entries the last entry of a key counts
(`find?_ofList`), so that with distinct keys all entries of the list are found
(`find?_ofList_eq_some_iff`). A change of all values that meets no error keeps the keys and changes
each value in its place (`exists_mapM_eq_ok`).
-/

namespace Tableflow

/-- Among things with distinct names the one of a name is found. -/
theorem find?_name_eq_some_iff {α : Type u} {κ : Type v} [DecidableEq κ] {name : α → κ}
    {as : List α} (h : (as.map name).Nodup) {key : κ} {a : α} :
    as.find? (fun a => name a = key) = some a ↔ a ∈ as ∧ name a = key := by
  constructor
  · intro ha
    exact ⟨List.mem_of_find?_eq_some ha, by simpa using List.find?_some ha⟩
  · rintro ⟨ha, rfl⟩
    obtain ⟨c, hc⟩ : ∃ c, as.find? (fun c => name c = name a) = some c :=
      Option.isSome_iff_exists.1 (List.find?_isSome.2 ⟨a, ha, decide_eq_true rfl⟩)
    have hname : name c = name a := by simpa using List.find?_some hc
    rw [hc, List.inj_on_of_nodup_map h (List.mem_of_find?_eq_some hc) ha hname]

namespace Dictionary

variable {α : Type u} {β : Type v} {ε : Type w}

/-! ## Entries and keys -/

theorem keys_pairwise (d : Dictionary α) : d.keys.Pairwise (· < ·) :=
  ascending_iff_keys.1 d.ascending

theorem nodup_of_ascending {entries : List (String × α)}
    (h : entries.Pairwise fun a b => a.1 < b.1) : (entries.map (·.1)).Nodup :=
  (ascending_iff_keys.1 h).imp fun hlt => String.ne_of_lt hlt

theorem nodup_keys (d : Dictionary α) : d.keys.Nodup := nodup_of_ascending d.ascending

/-- Of entries with distinct keys a look-up finds exactly the listed ones. -/
theorem lookup_eq_some_iff {entries : List (String × α)} (h : (entries.map (·.1)).Nodup)
    {key : String} {value : α} : entries.lookup key = some value ↔ (key, value) ∈ entries := by
  induction entries with
  | nil => simp
  | cons first rest ih =>
    obtain ⟨hfirst, hrest⟩ := List.nodup_cons.1 h
    rw [List.lookup_cons, List.mem_cons]
    by_cases hkey : key = first.1
    · subst hkey
      -- no later entry has the key of the first one
      have hnot : (first.1, value) ∉ rest := fun hmem =>
        hfirst (List.mem_map.2 ⟨(first.1, value), hmem, rfl⟩)
      simp [hnot, Prod.ext_iff, eq_comm]
    · rw [beq_eq_false_iff_ne.2 hkey]
      simp only [Prod.ext_iff, hkey, false_and, false_or]
      exact ih hrest

theorem find?_eq_some_iff {d : Dictionary α} {key : String} {value : α} :
    d.find? key = some value ↔ (key, value) ∈ d.entries :=
  lookup_eq_some_iff d.nodup_keys

/-- Two dictionaries with the same look-ups are equal. -/
theorem ext_find? {d e : Dictionary α} (h : ∀ key, d.find? key = e.find? key) : d = e := by
  have hnodup : ∀ d : Dictionary α, d.entries.Nodup := fun d => List.Nodup.of_map _ d.nodup_keys
  have hmem : ∀ entry, entry ∈ d.entries ↔ entry ∈ e.entries := by
    rintro ⟨key, value⟩
    rw [← find?_eq_some_iff, ← find?_eq_some_iff, h]
  refine Dictionary.ext (((List.perm_ext_iff_of_nodup (hnodup d) (hnodup e)).2 hmem).eq_of_pairwise
    (fun a b _ _ hab hba => ?_) d.ascending e.ascending)
  exact absurd (String.lt_trans hab hba) (String.lt_irrefl a.1)

theorem mem_keys_iff {d : Dictionary α} {key : String} :
    key ∈ d.keys ↔ ∃ value, d.find? key = some value := by
  simp [keys, find?_eq_some_iff]

theorem contains_iff {d : Dictionary α} {key : String} :
    d.contains key = true ↔ ∃ value, d.find? key = some value := by
  rw [contains, Option.isSome_iff_exists]

/-- The first key that passes a test is the least one that does. -/
theorem le_of_find?_keys {d : Dictionary α} {p : String → Bool} {key : String}
    (h : d.keys.find? p = some key) : ∀ other ∈ d.keys, p other = true → key ≤ other := by
  obtain ⟨-, front, back, hkeys, hfront⟩ := List.find?_eq_some_iff_append.1 h
  have hascending := d.keys_pairwise
  rw [hkeys, List.pairwise_append, List.pairwise_cons] at hascending
  obtain ⟨-, ⟨hback, -⟩, -⟩ := hascending
  intro other hother hp
  rw [hkeys, List.mem_append, List.mem_cons] at hother
  rcases hother with hother | rfl | hother
  · have hnot := hfront other hother
    rw [hp] at hnot
    cases hnot
  · exact String.le_refl _
  · exact String.not_lt.1 (String.lt_asymm (hback other hother))

/-! ## Insertion -/

theorem find?_insert (d : Dictionary α) (key other : String) (value : α) :
    (d.insert key value).find? other = if other = key then some value else d.find? other := by
  split
  · next h => rw [h, find?_insert_self]
  · next h => exact find?_insert_of_ne d h value

theorem mem_keys_insert {d : Dictionary α} {key other : String} {value : α} :
    other ∈ (d.insert key value).keys ↔ other = key ∨ other ∈ d.keys := by
  simp only [mem_keys_iff, find?_insert]
  split
  · next h => simp [h]
  · next h => simp [h]

theorem ofList_concat (entries : List (String × α)) (entry : String × α) :
    ofList (entries ++ [entry]) = (ofList entries).insert entry.1 entry.2 := by
  rw [ofList, List.foldl_append]
  rfl

theorem mem_keys_ofList {entries : List (String × α)} {key : String} :
    key ∈ (ofList entries).keys ↔ key ∈ entries.map (·.1) := by
  induction entries using List.reverseRecOn with
  | nil => rfl
  | append_singleton front last ih =>
    rw [ofList_concat, mem_keys_insert, ih, List.map_append, List.mem_append, List.map_singleton,
      List.mem_singleton, or_comm]

/-- Of the entries of a key the last one in the list is found. -/
theorem find?_ofList (entries : List (String × α)) (key : String) :
    (ofList entries).find? key = entries.reverse.lookup key := by
  induction entries using List.reverseRecOn with
  | nil => rfl
  | append_singleton front last ih =>
    rw [ofList_concat, find?_insert, ih, List.reverse_append, List.reverse_singleton,
      List.singleton_append, List.lookup_cons]
    by_cases hkey : key = last.1
    · simp [hkey]
    · rw [if_neg hkey, beq_eq_false_iff_ne.2 hkey]

/-- Of a list of entries with distinct keys each one is found. -/
theorem find?_ofList_eq_some_iff {entries : List (String × α)} (h : (entries.map (·.1)).Nodup)
    {key : String} {value : α} :
    (ofList entries).find? key = some value ↔ (key, value) ∈ entries := by
  have hreverse : (entries.reverse.map (·.1)).Nodup := by
    rwa [List.map_reverse, List.nodup_reverse]
  rw [find?_ofList, lookup_eq_some_iff hreverse, List.mem_reverse]

theorem ofList_entries (d : Dictionary α) : ofList d.entries = d := by
  refine ext_find? fun key => Option.ext fun value => ?_
  rw [find?_ofList_eq_some_iff d.nodup_keys, find?_eq_some_iff]

/-- Of values under names of their own the last one of a name is found. -/
theorem find?_ofList_map (name : α → String) (values : List α) (key : String) :
    (ofList (values.map fun a => (name a, a))).find? key =
      values.reverse.find? fun a => name a = key := by
  induction values using List.reverseRecOn with
  | nil => rfl
  | append_singleton front last ih =>
    rw [List.map_append, List.map_singleton, ofList_concat, find?_insert, ih, List.reverse_append,
      List.reverse_singleton, List.singleton_append, List.find?_cons]
    by_cases hkey : name last = key
    · simp [hkey]
    · simp [hkey, Ne.symm hkey]

/-! ## Changing all values -/

theorem exists_mapEntries_eq_ok {f : α → Except ε β} {entries : List (String × α)}
    (h : ∀ entry ∈ entries, ∃ b, f entry.2 = .ok b) :
    ∃ changed, mapEntries f entries = .ok changed ∧
      ∀ entry ∈ entries, ∃ b, f entry.2 = .ok b ∧ (entry.1, b) ∈ changed.1 := by
  induction entries with
  | nil => exact ⟨_, rfl, by simp⟩
  | cons first rest ih =>
    obtain ⟨b, hb⟩ := h first List.mem_cons_self
    obtain ⟨changed, hchanged, hmem⟩ :=
      ih fun entry hentry => h entry (List.mem_cons_of_mem _ hentry)
    refine ⟨⟨(first.1, b) :: changed.1, by simp [changed.2]⟩, ?_, fun entry hentry => ?_⟩
    · simp only [mapEntries, hb, hchanged]
    · rcases List.mem_cons.1 hentry with rfl | hentry
      · exact ⟨b, hb, List.mem_cons_self⟩
      · obtain ⟨c, hc, hin⟩ := hmem entry hentry
        exact ⟨c, hc, List.mem_cons_of_mem _ hin⟩

theorem mapEntries_congr {f g : α → Except ε β} {entries : List (String × α)}
    (h : ∀ entry ∈ entries, f entry.2 = g entry.2) :
    mapEntries f entries = mapEntries g entries := by
  induction entries with
  | nil => rfl
  | cons first rest ih =>
    obtain ⟨hfirst, hrest⟩ := List.forall_mem_cons.1 h
    rw [mapEntries, mapEntries, hfirst, ih hrest]

theorem mapM_congr {f g : α → Except ε β} {d : Dictionary α}
    (h : ∀ key value, d.find? key = some value → f value = g value) : d.mapM f = d.mapM g := by
  have hentries : ∀ entry ∈ d.entries, f entry.2 = g entry.2 := fun entry hentry =>
    h entry.1 entry.2 (find?_eq_some_iff.2 hentry)
  rw [mapM, mapM, mapEntries_congr hentries]

/-- A change that meets no error keeps the keys and changes each value in its place. -/
theorem exists_mapM_eq_ok {f : α → Except ε β} {d : Dictionary α}
    (h : ∀ key value, d.find? key = some value → ∃ b, f value = .ok b) :
    ∃ e, d.mapM f = .ok e ∧ e.keys = d.keys ∧
      ∀ key value, d.find? key = some value → ∃ b, f value = .ok b ∧ e.find? key = some b := by
  have hentries : ∀ entry ∈ d.entries, ∃ b, f entry.2 = .ok b := fun entry hentry =>
    h entry.1 entry.2 (find?_eq_some_iff.2 hentry)
  obtain ⟨changed, hchanged, hmem⟩ := exists_mapEntries_eq_ok hentries
  refine ⟨⟨changed.1, ?_⟩, ?_, changed.2, fun key value hfind => ?_⟩
  · rw [ascending_iff_keys, changed.2]
    exact d.keys_pairwise
  · rw [mapM, hchanged]
    rfl
  · obtain ⟨b, hb, hin⟩ := hmem (key, value) (find?_eq_some_iff.1 hfind)
    exact ⟨b, hb, find?_eq_some_iff.2 hin⟩

end Dictionary

end Tableflow
