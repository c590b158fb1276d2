import Mathlib.Data.List.Basic
import Tableflow.Files.Tree
import Tableflow.Proofs.Except
import Tableflow.Proofs.Text

/-!
# What is read after writing

A file is read as it was written (`read_of_write`), and still is when a file of another name has
been written after it (`read_of_write_of_write`), because a file is put where there is no directory
and so keeps all ways that lead through the tree (`Extends`).
-/

namespace Tableflow.FileTree

variable {t t' : FileTree} {place : List String} {path name : String} {content : ByteArray}

/-! ## Putting files -/

theorem node?_put_self (h : isAbove place = false) (node : FileNode) :
    (t.put place node).node? place = some node := by
  simp [node?, put, h]

theorem node?_put_of_ne {other : List String} (h : other ≠ place) (node : FileNode) :
    (t.put place node).node? other = t.node? other := by
  have hlookup : (t.nodes.filter fun entry => entry.1 ≠ place).lookup other =
      t.nodes.lookup other := by
    induction t.nodes with
    | nil => rfl
    | cons entry rest ih =>
      by_cases hentry : entry.1 = place
      · have hne : (other == entry.1) = false := beq_eq_false_iff_ne.2 (hentry ▸ h)
        rw [List.filter_cons_of_neg (by simpa using hentry), List.lookup_cons, hne, ih]
      · rw [List.filter_cons_of_pos (by simpa using hentry), List.lookup_cons, List.lookup_cons, ih]
  rw [node?, node?, put, List.lookup_cons, beq_eq_false_iff_ne.2 h, hlookup]

/-- A tree has the directories of another one, and something wherever the other one has. -/
structure Extends (t t' : FileTree) : Prop where
  directories : ∀ place, t'.isDirectoryAt place = t.isDirectoryAt place
  present : ∀ place, (t.node? place).isSome → (t'.node? place).isSome

theorem isAbove_eq_false (h : t.isDirectoryAt place = false) : isAbove place = false := by
  by_contra habove
  rw [isDirectoryAt, node?, if_pos (by simpa using habove)] at h
  cases h

/-- A file in a place without a directory leaves all directories as they are. -/
theorem extends_put (h : t.isDirectoryAt place = false) (content : ByteArray) :
    Extends t (t.put place (.file content)) := by
  have hself := @node?_put_self t place (isAbove_eq_false h) (.file content)
  constructor
  all_goals
    intro other
    by_cases hother : other = place
  · rw [hother, h, isDirectoryAt, hself]
    rfl
  · rw [isDirectoryAt, node?_put_of_ne hother, isDirectoryAt]
  · exact fun _ => by rw [hother, hself]; rfl
  · exact fun hsome => by rwa [node?_put_of_ne hother]

/-! ## Following paths -/

namespace Extends

variable (h : Extends t t')
include h

theorem enter {next : List String} (henter : t.enter place name = .ok next) :
    t'.enter place name = .ok next := by
  rw [FileTree.enter] at henter ⊢
  rw [h.directories]
  by_cases hsome : (t.node? (place ++ [name])).isSome
  · rw [if_pos hsome] at henter
    rwa [if_pos (h.present _ hsome)]
  · -- what is looked up in vain is no step of the way
    rw [if_neg hsome] at henter
    split at henter
    · cases henter
    · next hdirectory =>
      rw [if_neg hdirectory]
      split at henter
      · next hdot => rwa [if_pos hdot]
      · next hdot =>
        rw [if_neg hdot]
        split at henter
        · next hdots => rwa [if_pos hdots]
        · split at henter <;> cases henter

theorem foldlM_enter {names next : List String}
    (hnames : names.foldlM t.enter place = .ok next) : names.foldlM t'.enter place = .ok next := by
  induction names generalizing place with
  | nil => exact hnames
  | cons name rest ih =>
    rw [List.foldlM_cons, bind_eq_ok_iff] at hnames ⊢
    obtain ⟨middle, henter, hrest⟩ := hnames
    exact ⟨middle, h.enter henter, ih hrest⟩

theorem locate (hlocate : t.locate path = .ok place) : t'.locate path = .ok place := by
  simp only [FileTree.locate, bind_eq_ok_iff, h.directories] at hlocate ⊢
  obtain ⟨found, hnames, next, hleads, hnext⟩ := hlocate
  exact ⟨found, hnames, next, h.foldlM_enter hleads, hnext⟩

end Extends

/-! ## Writing and reading -/

/-- A file is put, under the last name of a path, into the directory that the names before it lead
to. -/
structure Written (t : FileTree) (path : String) (content : ByteArray) (t' : FileTree)
    (front directory : List String) (name : String) : Prop where
  names_eq : names path = .ok (front ++ [name])
  leads : front.foldlM t.enter [] = .ok directory
  within : t.isDirectoryAt directory = true
  no_dots : name ≠ "." ∧ name ≠ ".."
  no_slash : endsInSlash path = false
  short : name.utf8ByteSize ≤ nameLimit
  free : t.isDirectoryAt (directory ++ [name]) = false
  eq_put : t' = t.put (directory ++ [name]) (.file content)

/-- The last name of a path is looked up in the directory that the names before it lead to. -/
theorem locateLast_eq_ok {directory : List String}
    (h : t.locateLast path = .ok (directory, some name)) :
    ∃ front, names path = .ok (front ++ [name]) ∧ front.foldlM t.enter [] = .ok directory ∧
      t.isDirectoryAt directory = true ∧ name ≠ "." ∧ name ≠ ".." := by
  simp only [locateLast, bind_eq_ok_iff] at h
  obtain ⟨found, hnames, place, hleads, hlast⟩ := h
  split at hlast
  · cases hlast
  · next last hlast? =>
    split at hlast
    · cases hlast
    · next hwithin =>
      split at hlast
      · cases hlast
      · next hdots =>
        cases hlast
        rw [← List.dropLast_append_getLast? name hlast?] at hnames
        rw [Bool.or_eq_true, decide_eq_true_eq, decide_eq_true_eq, not_or] at hdots
        exact ⟨_, hnames, hleads, by simpa using hwithin, hdots⟩

theorem exists_written (h : t.write path content = .ok t') :
    ∃ front directory name, Written t path content t' front directory name := by
  rw [write, bind_eq_ok_iff] at h
  obtain ⟨⟨directory, _ | name⟩, hlast, hput⟩ := h
  · cases hput
  · obtain ⟨front, hnames, hleads, hwithin, hdots⟩ := locateLast_eq_ok hlast
    simp only at hput
    split at hput
    · cases hput
    · next hslash =>
      split at hput
      · cases hput
      · next hshort =>
        split at hput
        · cases hput
        · next hfree =>
          exact ⟨front, directory, name, hnames, hleads, hwithin, hdots, by simpa using hslash,
            Nat.not_lt.1 hshort, by simpa using hfree, (Except.ok.inj hput).symm⟩

namespace Written

variable {front directory : List String} (h : Written t path content t' front directory name)
include h

theorem extends_tree : Extends t t' := by
  rw [h.eq_put]
  exact extends_put h.free content

theorem node?_eq : t'.node? (directory ++ [name]) = some (.file content) := by
  rw [h.eq_put]
  exact node?_put_self (isAbove_eq_false h.free) _

theorem locate_eq : t'.locate path = .ok (directory ++ [name]) := by
  have henter : t'.enter directory name = .ok (directory ++ [name]) := by
    rw [FileTree.enter, h.extends_tree.directories, h.within, if_neg (by simp),
      if_neg h.no_dots.1, if_neg h.no_dots.2, if_neg (Nat.not_lt.2 h.short), h.node?_eq]
    rfl
  rw [locate, h.names_eq, ok_bind, List.foldlM_append,
    h.extends_tree.foldlM_enter h.leads, ok_bind, List.foldlM_cons, henter]
  simp [h.no_slash]

/-- A file is read as it was written. -/
theorem read_eq : t'.read path = .ok content := by
  rw [read, h.locate_eq, ok_bind, h.node?_eq]
  rfl

end Written

/-- A file is read as it was written. -/
theorem read_of_write (h : t.write path content = .ok t') : t'.read path = .ok content := by
  obtain ⟨_, _, _, hwritten⟩ := exists_written h
  exact hwritten.read_eq

/-! ## Names in directories -/

/-- A name stands last in a text that can be a path. -/
def EndsIn (path name : String) : Prop :=
  ∀ found, names path = .ok found → found.getLast? = some name

theorem exists_pieces_join (directory : String) (hslash : '/' ∉ name.toList) :
    ∃ above, Path.pieces (Path.join directory name) = above ++ [name] := by
  have hname : (Text.fields '/' name.toList).map String.ofList = [name] := by
    rw [Text.fields_eq_singleton hslash, List.map_singleton, String.ofList_toList]
  rw [Path.pieces, Path.join]
  split
  · next h =>
    rw [Bool.or_eq_true, decide_eq_true_eq] at h
    rcases h with hempty | hlast
    · obtain rfl : directory = "" := by simpa using hempty
      exact ⟨[], by simpa using hname⟩
    · have hdirectory : directory.toList.dropLast ++ ['/'] = directory.toList :=
        List.dropLast_append_getLast? '/' hlast
      rw [String.toList_append, ← hdirectory, List.append_assoc, List.singleton_append,
        Text.fields_append_cons, List.map_append, hname]
      exact ⟨_, rfl⟩
  · rw [String.toList_append, String.toList_append, show "/".toList = ['/'] from rfl,
      List.append_assoc, List.singleton_append, Text.fields_append_cons, List.map_append, hname]
    exact ⟨_, rfl⟩

/-- The path of a name in a directory ends in that name. -/
theorem endsIn_join (directory : String) (hname : name ≠ "") (hslash : '/' ∉ name.toList) :
    EndsIn (Path.join directory name) name := by
  intro found hfound
  obtain ⟨above, habove⟩ := exists_pieces_join directory hslash
  rw [names, habove] at hfound
  split at hfound
  · cases hfound
  · split at hfound
    · cases hfound
    · split at hfound
      · cases hfound
      · rw [← Except.ok.inj hfound, List.filter_append]
        simp [hname]

/-- A file is still read as it was written when one of another name has been written. -/
theorem read_of_write_of_write {t₁ t₂ t₃ : FileTree} {path₁ path₂ name₁ name₂ : String}
    {content₁ content₂ : ByteArray} (h₁ : t₁.write path₁ content₁ = .ok t₂)
    (h₂ : t₂.write path₂ content₂ = .ok t₃) (hname₁ : EndsIn path₁ name₁)
    (hname₂ : EndsIn path₂ name₂) (hne : name₁ ≠ name₂) : t₃.read path₁ = .ok content₁ := by
  obtain ⟨front₁, directory₁, last₁, hfirst⟩ := exists_written h₁
  obtain ⟨front₂, directory₂, last₂, hsecond⟩ := exists_written h₂
  obtain rfl : last₁ = name₁ := by simpa using hname₁ _ hfirst.names_eq
  obtain rfl : last₂ = name₂ := by simpa using hname₂ _ hsecond.names_eq
  have hplace : directory₁ ++ [last₁] ≠ directory₂ ++ [last₂] := fun heq =>
    hne (List.singleton_inj.1 (List.append_inj_right' heq rfl))
  rw [read, hsecond.extends_tree.locate hfirst.locate_eq, ok_bind, hsecond.eq_put,
    node?_put_of_ne hplace, hfirst.node?_eq]
  rfl

end Tableflow.FileTree
