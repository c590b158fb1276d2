/-!
# Dictionaries

Values under text keys, held in ascending order of the keys (by code point, which is also the
order of their UTF-8 bytes). The order is part of the type, so what is listed from a dictionary
never shows how it was built. The laws of insertion are `find?_insert_self` and
`find?_insert_of_ne`.
-/

namespace Tableflow

/-- Values under distinct text keys, in ascending order of the keys. -/
@[ext] structure Dictionary (α : Type u) where
  entries : List (String × α)
  ascending : entries.Pairwise fun a b => a.1 < b.1
  deriving DecidableEq

namespace Dictionary

variable {α : Type u}

/-! ## Look-up -/

def empty : Dictionary α := ⟨[], .nil⟩

instance : Inhabited (Dictionary α) := ⟨empty⟩

def keys (d : Dictionary α) : List String := d.entries.map (·.1)

def size (d : Dictionary α) : Nat := d.entries.length

def isEmpty (d : Dictionary α) : Bool := d.entries.isEmpty

/-- The value under a key. -/
def find? (d : Dictionary α) (key : String) : Option α := d.entries.lookup key

def contains (d : Dictionary α) (key : String) : Bool := (d.find? key).isSome

/-! ## Insertion -/

/-- Puts a value under a key into an ascending list of entries, in place of the one there. -/
def insertEntry (key : String) (value : α) : List (String × α) → List (String × α)
  | [] => [(key, value)]
  | (k, v) :: rest =>
    if key < k then (key, value) :: (k, v) :: rest
    else if key = k then (key, value) :: rest
    else (k, v) :: insertEntry key value rest

theorem mem_insertEntry {key : String} {value : α} {entries : List (String × α)}
    {entry : String × α} (h : entry ∈ insertEntry key value entries) :
    entry = (key, value) ∨ entry ∈ entries := by
  induction entries with
  | nil => simpa [insertEntry] using h
  | cons first rest ih =>
    unfold insertEntry at h
    grind

theorem insertEntry_ascending {key : String} {value : α} {entries : List (String × α)}
    (h : entries.Pairwise fun a b => a.1 < b.1) :
    (insertEntry key value entries).Pairwise fun a b => a.1 < b.1 := by
  induction entries with
  | nil => simp [insertEntry]
  | cons first rest ih =>
    obtain ⟨k, v⟩ := first
    rw [List.pairwise_cons] at h
    unfold insertEntry
    split
    · next hlt =>
      refine List.pairwise_cons.2 ⟨?_, List.pairwise_cons.2 h⟩
      intro b hb
      rcases List.mem_cons.1 hb with rfl | hb
      · exact hlt
      · exact String.lt_trans hlt (h.1 b hb)
    · split
      · next heq =>
        subst heq
        exact List.pairwise_cons.2 h
      · next hge hne =>
        refine List.pairwise_cons.2 ⟨?_, ih h.2⟩
        intro b hb
        rcases mem_insertEntry hb with rfl | hb
        · rcases String.le_total key k with hle | hle
          · exact absurd (String.le_antisymm hle (String.not_lt.1 hge)) hne
          · exact String.not_le.1 fun hle' => hne (String.le_antisymm hle' hle)
        · exact h.1 b hb

/-- The dictionary with a value under a key, in place of the one there. -/
def insert (d : Dictionary α) (key : String) (value : α) : Dictionary α :=
  ⟨insertEntry key value d.entries, insertEntry_ascending d.ascending⟩

/-- The dictionary of a list of entries; of entries with one key the last counts. -/
def ofList (entries : List (String × α)) : Dictionary α :=
  entries.foldl (fun d entry => d.insert entry.1 entry.2) empty

/-- The dictionary with every value changed. -/
def map {β : Type v} (f : α → β) (d : Dictionary α) : Dictionary β :=
  ⟨d.entries.map fun entry => (entry.1, f entry.2), by
    simpa [List.pairwise_map] using d.ascending⟩

/-- Changes every value of a list of entries, in order, up to the first error. -/
def mapEntries {ε : Type w} {β : Type v} (f : α → Except ε β) : (entries : List (String × α)) →
    Except ε { changed : List (String × β) // changed.map (·.1) = entries.map (·.1) }
  | [] => .ok ⟨[], rfl⟩
  | (key, value) :: rest =>
    match f value, mapEntries f rest with
    | .error e, _ => .error e
    | .ok _, .error e => .error e
    | .ok b, .ok ⟨changed, h⟩ => .ok ⟨(key, b) :: changed, by simp [h]⟩

theorem ascending_iff_keys {entries : List (String × α)} :
    (entries.Pairwise fun a b => a.1 < b.1) ↔ (entries.map (·.1)).Pairwise (· < ·) := by
  rw [List.pairwise_map]

/-- The dictionary with every value changed, or the error of the first key that has one. -/
def mapM {ε : Type w} {β : Type v} (f : α → Except ε β) (d : Dictionary α) :
    Except ε (Dictionary β) :=
  (mapEntries f d.entries).map fun changed =>
    ⟨changed.1, by
      rw [ascending_iff_keys, changed.2]
      exact ascending_iff_keys.1 d.ascending⟩

/-! ## Laws -/

theorem lookup_insertEntry_self (key : String) (value : α) (entries : List (String × α)) :
    (insertEntry key value entries).lookup key = some value := by
  induction entries with
  | nil => simp [insertEntry]
  | cons first rest ih =>
    unfold insertEntry
    grind

theorem lookup_insertEntry_of_ne {key other : String} (h : other ≠ key) (value : α)
    (entries : List (String × α)) :
    (insertEntry key value entries).lookup other = entries.lookup other := by
  induction entries with
  | nil => simp [insertEntry, h]
  | cons first rest ih =>
    unfold insertEntry
    grind

@[simp] theorem find?_empty (key : String) : (empty : Dictionary α).find? key = none := rfl

@[simp] theorem find?_insert_self (d : Dictionary α) (key : String) (value : α) :
    (d.insert key value).find? key = some value :=
  lookup_insertEntry_self ..

theorem find?_insert_of_ne (d : Dictionary α) {key other : String} (h : other ≠ key) (value : α) :
    (d.insert key value).find? other = d.find? other :=
  lookup_insertEntry_of_ne h ..

end Dictionary

end Tableflow
