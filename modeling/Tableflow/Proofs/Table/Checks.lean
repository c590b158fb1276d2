import Mathlib.Data.List.Induction
import Mathlib.Data.List.Nodup
import Tableflow.Table.Json

/-!
# Which data make a table or a series

A `Sheet` is the data of a table and a `Strip` is the data of a series, of which nothing is promised
yet. A sheet is `Shaped` or it `Offends`: some column is the first one that repeats a name or is not
as long as the index (`Sheet.shaped_or_offends`). Whatever makes tables out of sheets is told by
this: it accepts a sheet just if the sheet is shaped, and otherwise it reports that column
(`Sheet.admitted_withIndex`), and so does reading from text (`Sheet.admitted_decodeText`). The same
is said of series.
-/

namespace Tableflow

open Json (Tree Reals Decoded decodeText)

/-! ## Bare data -/

/-- The data of a table. -/
structure Sheet where
  index : List Nat
  columns : List Column
  deriving DecidableEq

/-- The data of a series. -/
structure Strip where
  index : List Nat
  column : Column
  deriving DecidableEq

/-- The data that a table holds. -/
def Table.sheet (t : Table) : Sheet := ⟨t.index, t.columns⟩

/-- The data that a series holds. -/
def Series.strip (s : Series) : Strip := ⟨s.index, s.column⟩

/-- The first offence of a column against an index, where `before` are the columns before it. -/
inductive Column.Offence (index : List Nat) (before : List Column) (c : Column) : TableDefect → Prop
  | repeated : c.name ∈ before.map (·.name) → Offence index before c (.duplicateColumn c.name)
  | length : c.name ∉ before.map (·.name) → c.length ≠ index.length →
    Offence index before c (.columnLength c.name c.length index.length)

namespace Sheet

/-- The columns have distinct names, and each of them is as long as the index. -/
structure Shaped (s : Sheet) : Prop where
  nodup_names : (s.columns.map (·.name)).Nodup
  length_columns : ∀ c ∈ s.columns, c.length = s.index.length

/-- The first column that offends, offends in this way. -/
def Offends (s : Sheet) (defect : TableDefect) : Prop :=
  ∃ front c back, s.columns = front ++ c :: back ∧ Shaped ⟨s.index, front⟩ ∧
    c.Offence s.index front defect

theorem shaped_concat {index : List Nat} {front : List Column} {c : Column}
    (h : Shaped ⟨index, front⟩) (hname : c.name ∉ front.map (·.name))
    (hlength : c.length = index.length) : Shaped ⟨index, front ++ [c]⟩ := by
  refine ⟨?_, fun d hd => ?_⟩
  · rw [List.map_append, List.map_singleton, ← List.concat_eq_append]
    exact h.nodup_names.concat hname
  · rcases List.mem_append.1 hd with hd | hd
    · exact h.length_columns d hd
    · rw [List.mem_singleton.1 hd]
      exact hlength

/-- Of the columns of a sheet none offends, or one is the first to offend. -/
theorem shaped_or_offends (s : Sheet) : s.Shaped ∨ ∃ defect, s.Offends defect := by
  obtain ⟨index, columns⟩ := s
  induction columns using List.reverseRecOn with
  | nil => exact .inl ⟨List.nodup_nil, fun _ hc => nomatch hc⟩
  | append_singleton front last ih =>
    rcases ih with hshaped | ⟨defect, before, c, back, hsplit, hrest⟩
    · by_cases hname : last.name ∈ front.map (·.name)
      · exact .inr ⟨_, front, last, [], rfl, hshaped, .repeated hname⟩
      · by_cases hlength : last.length = index.length
        · exact .inl (shaped_concat hshaped hname hlength)
        · exact .inr ⟨_, front, last, [], rfl, hshaped, .length hname hlength⟩
    · refine .inr ⟨defect, before, c, back ++ [last], ?_, hrest⟩
      rw [show front = before ++ c :: back from hsplit, List.append_assoc, List.cons_append]

end Sheet

theorem Table.shaped_sheet (t : Table) : t.sheet.Shaped := ⟨t.names_nodup, t.length_columns⟩

namespace Strip

/-- The column is as long as the index. -/
def Shaped (s : Strip) : Prop := s.column.length = s.index.length

/-- The column is not as long as the index, which is what is reported. -/
def Offends (s : Strip) (defect : TableDefect) : Prop :=
  s.column.length ≠ s.index.length ∧
    defect = .seriesLength s.column.name s.column.length s.index.length

end Strip

theorem Series.shaped_strip (s : Series) : s.strip.Shaped := s.length_column

/-! ## Admitting data -/

/-- A result is a value with a property just if what was given is sound, and otherwise it is the
error for the way in which it offends. -/
structure Admits {ε α : Type} (sound : Prop) (offends : TableDefect → Prop) (kept : α → Prop)
    (refuse : TableDefect → ε) (result : Except ε α) : Prop where
  accepts : (∃ a, result = .ok a) ↔ sound
  keeps : ∀ a, result = .ok a → kept a
  refuses : ∀ e, result = .error e ↔ ∃ defect, offends defect ∧ e = refuse defect

theorem Admits.of_or {ε α : Type} {sound : Prop} {offends : TableDefect → Prop} {kept : α → Prop}
    {refuse : TableDefect → ε} {result : Except ε α} (h : sound ∨ ∃ defect, offends defect)
    (hok : sound → ∃ a, result = .ok a ∧ kept a)
    (herror : ∀ defect, offends defect → result = .error (refuse defect)) :
    Admits sound offends kept refuse result := by
  cases result with
  | ok a =>
    -- nothing offends, for that would be reported
    have hnot : ∀ defect, ¬ offends defect := fun defect hdefect => nomatch herror defect hdefect
    have hsound := h.resolve_right fun ⟨defect, hdefect⟩ => hnot defect hdefect
    obtain ⟨b, hb, hkept⟩ := hok hsound
    obtain rfl := Except.ok.inj hb
    refine ⟨iff_of_true ⟨a, rfl⟩ hsound, fun b hb => Except.ok.inj hb ▸ hkept, fun e => ?_⟩
    exact iff_of_false (fun h => nomatch h) fun ⟨defect, hdefect, _⟩ => hnot defect hdefect
  | error e =>
    have hnot : ¬ sound := fun hsound => by
      obtain ⟨a, ha, -⟩ := hok hsound
      cases ha
    obtain ⟨defect, hdefect⟩ := h.resolve_left hnot
    refine ⟨iff_of_false (fun ⟨_, h⟩ => nomatch h) hnot, (fun _ h => nomatch h), fun e' => ?_⟩
    constructor
    · intro he
      exact ⟨defect, hdefect, (Except.error.inj he).symm.trans
        (Except.error.inj (herror defect hdefect))⟩
    · rintro ⟨defect, hdefect, rfl⟩
      exact herror defect hdefect

/-- A result is the table of a sheet if that is shaped, and otherwise the error for the first column
that offends. -/
def Sheet.Admitted {ε : Type} (s : Sheet) (refuse : TableDefect → ε) (result : Except ε Table) :
    Prop :=
  Admits s.Shaped s.Offends (fun t => t.sheet = s) refuse result

/-- A result is the series of a strip if that is shaped, and otherwise the error for its length. -/
def Strip.Admitted {ε : Type} (s : Strip) (refuse : TableDefect → ε) (result : Except ε Series) :
    Prop :=
  Admits s.Shaped s.Offends (fun t => t.strip = s) refuse result

/-! ## Checking columns -/

/-- The search for a defect passes over columns in which there is none. -/
theorem Table.firstDefect_append {index : List Nat} {front : List Column} (back : List Column)
    {seen : List String} (hnodup : (front.map (·.name)).Nodup)
    (hfresh : ∀ c ∈ front, c.name ∉ seen) (hlength : ∀ c ∈ front, c.length = index.length) :
    firstDefect index seen (front ++ back) =
      firstDefect index ((front.map (·.name)).reverse ++ seen) back := by
  induction front generalizing seen with
  | nil => rfl
  | cons c rest ih =>
    obtain ⟨hname, hnodup⟩ := List.nodup_cons.1 hnodup
    obtain ⟨hc, hfresh⟩ := List.forall_mem_cons.1 hfresh
    obtain ⟨hclength, hlength⟩ := List.forall_mem_cons.1 hlength
    have hrest : ∀ d ∈ rest, d.name ∉ c.name :: seen := fun d hd hmem => by
      rcases List.mem_cons.1 hmem with heq | hmem
      · exact hname (List.mem_map.2 ⟨d, hd, heq⟩)
      · exact hfresh d hd hmem
    rw [List.cons_append, firstDefect, if_neg hc, if_neg (not_not.2 hclength),
      ih hnodup hrest hlength, List.map_cons, List.reverse_cons, List.append_assoc,
      List.singleton_append]

namespace Sheet

variable {s : Sheet}

theorem Shaped.firstDefect_append {front : List Column} {index : List Nat}
    (h : Shaped ⟨index, front⟩) (back : List Column) :
    Table.firstDefect index [] (front ++ back) =
      Table.firstDefect index (front.map (·.name)).reverse back := by
  rw [Table.firstDefect_append back h.nodup_names (fun _ _ => List.not_mem_nil) h.length_columns,
    List.append_nil]

theorem Shaped.firstDefect_eq_none (h : s.Shaped) :
    Table.firstDefect s.index [] s.columns = none := by
  rw [← List.append_nil s.columns]
  exact h.firstDefect_append []

theorem Offends.firstDefect_eq_some {defect : TableDefect} (h : s.Offends defect) :
    Table.firstDefect s.index [] s.columns = some defect := by
  obtain ⟨front, c, back, hsplit, hfront, hoffence⟩ := h
  rw [hsplit, hfront.firstDefect_append, Table.firstDefect]
  cases hoffence with
  | repeated hname => rw [if_pos (List.mem_reverse.2 hname)]
  | length hname hlength => rw [if_neg (mt List.mem_reverse.1 hname), if_pos hlength]

theorem Shaped.exists_withIndex_eq_ok (h : s.Shaped) :
    ∃ t, Table.withIndex s.index s.columns = .ok t ∧ t.sheet = s := by
  rw [Table.withIndex]
  split
  · next defect hdefect =>
    rw [h.firstDefect_eq_none] at hdefect
    cases hdefect
  · exact ⟨_, rfl, rfl⟩

theorem Offends.withIndex_eq_error {defect : TableDefect} (h : s.Offends defect) :
    Table.withIndex s.index s.columns = .error defect := by
  rw [Table.withIndex]
  split
  · next other hother =>
    rw [h.firstDefect_eq_some] at hother
    rw [Option.some.inj hother]
  · next hnone =>
    rw [h.firstDefect_eq_some] at hnone
    cases hnone

/-- Columns with an index make a table just if they are shaped. -/
theorem admitted_withIndex (s : Sheet) : s.Admitted id (Table.withIndex s.index s.columns) :=
  .of_or s.shaped_or_offends Shaped.exists_withIndex_eq_ok fun _ => Offends.withIndex_eq_error

end Sheet

/-- A column with an index makes a series just if it is shaped. -/
theorem Strip.admitted_withIndex (s : Strip) :
    s.Admitted id (Series.withIndex s.index s.column) := by
  refine .of_or ?_ (fun h => ⟨_, dif_pos h, rfl⟩) ?_
  · by_cases h : s.Shaped
    · exact .inl h
    · exact .inr ⟨_, h, rfl⟩
  · rintro defect ⟨hlength, rfl⟩
    exact dif_neg hlength

/-! ## Reading -/

section

variable {α β : Type} {text : String} {read : Tree → Option β}

/-- A whole text spells some data, which nothing is asked of. -/
def Spells (read : Tree → Option β) (text : String) (b : β) : Prop :=
  decodeText (fun tree => (.ofOption (read tree) : Decoded TableDefect β)) text = .ok b

theorem spells_iff {b : β} :
    Spells read text b ↔ read (Tree.read text.toList).1 = some b ∧
      (Tree.read text.toList).2.map Json.skipSpace = some [] := by
  rw [Spells, Json.decodeText_eq_ok_iff]
  cases read (Tree.read text.toList).1 <;> simp [Decoded.ofOption]

variable {check : β → Except TableDefect α} {decode : Tree → Decoded TableDefect α}

/-- Data are decoded by a check of what was read. -/
def DecodesBy (decode : Tree → Decoded TableDefect α) (read : Tree → Option β)
    (check : β → Except TableDefect α) : Prop :=
  ∀ tree, decode tree = Decoded.ofOption (read tree) >>= fun b => .checked (check b)

theorem DecodesBy.decodeText_eq (h : DecodesBy decode read check) {b : β}
    (hspells : Spells read text b) : decodeText decode text = .checked (check b) := by
  obtain ⟨hread, hrest⟩ := spells_iff.1 hspells
  have hdecode : decode (Tree.read text.toList).1 = .checked (check b) := by
    rw [h, hread]
    rfl
  cases hb : check b with
  | ok a =>
    rw [hb] at hdecode
    exact Json.decodeText_eq_ok_iff.2 ⟨hdecode, hrest⟩
  | error defect =>
    rw [hb] at hdecode
    exact Json.decodeText_of_error hdecode

theorem DecodesBy.exists_spells (h : DecodesBy decode read check) {a : α}
    (hok : decodeText decode text = .ok a) : ∃ b, Spells read text b ∧ check b = .ok a := by
  obtain ⟨hdecode, hrest⟩ := Json.decodeText_eq_ok_iff.1 hok
  rw [h] at hdecode
  cases hread : read (Tree.read text.toList).1 with
  | none =>
    rw [hread] at hdecode
    cases hdecode
  | some b =>
    rw [hread] at hdecode
    refine ⟨b, spells_iff.2 ⟨hread, hrest⟩, ?_⟩
    have hchecked : Decoded.checked (check b) = .ok a := hdecode
    cases hb : check b with
    | ok a' =>
      rw [hb] at hchecked
      rw [Except.ok.inj hchecked]
    | error defect =>
      rw [hb] at hchecked
      cases hchecked

theorem Admits.checked {sound : Prop} {offends : TableDefect → Prop} {kept : α → Prop}
    {result : Except TableDefect α} (h : Admits sound offends kept id result) :
    Admits sound offends kept (.refused []) (Decoded.checked result) := by
  refine .of_or ?_ (fun hsound => ?_) fun defect hdefect => ?_
  · cases hresult : result with
    | ok a => exact .inl (h.accepts.1 ⟨a, hresult⟩)
    | error e =>
      obtain ⟨defect, hdefect, -⟩ := (h.refuses e).1 hresult
      exact .inr ⟨defect, hdefect⟩
  · obtain ⟨a, rfl⟩ := h.accepts.2 hsound
    exact ⟨a, rfl, h.keeps a rfl⟩
  · rw [(h.refuses defect).2 ⟨defect, hdefect, rfl⟩]
    rfl

end

/-- The data of a table that a tree holds. -/
def Sheet.ofTree (reals : Reals) (tree : Tree) : Option Sheet := do
  let record := Tree.Record.of ["index", "columns"] false tree
  let index ← record.required 0 indexOfTree
  let columns ← record.required 1 (Tree.asList (Column.ofTree reals))
  return ⟨index, columns⟩

/-- The data of a series that a tree holds. -/
def Strip.ofTree (reals : Reals) (tree : Tree) : Option Strip := do
  let record := Tree.Record.of ["index", "column"] false tree
  let index ← record.required 0 indexOfTree
  let column ← record.required 1 (Column.ofTree reals)
  return ⟨index, column⟩

theorem Table.decodesBy_ofTree (reals : Reals) :
    DecodesBy (Table.ofTree reals) (Sheet.ofTree reals)
      fun s => Table.withIndex s.index s.columns := by
  intro tree
  simp only [Table.ofTree, Sheet.ofTree]
  cases (Tree.Record.of ["index", "columns"] false tree).required 0 indexOfTree with
  | none => rfl
  | some index =>
    cases (Tree.Record.of ["index", "columns"] false tree).required 1
        (Tree.asList (Column.ofTree reals)) with
    | none => rfl
    | some columns => rfl

theorem Series.decodesBy_ofTree (reals : Reals) :
    DecodesBy (Series.ofTree reals) (Strip.ofTree reals)
      fun s => Series.withIndex s.index s.column := by
  intro tree
  simp only [Series.ofTree, Strip.ofTree]
  cases (Tree.Record.of ["index", "column"] false tree).required 0 indexOfTree with
  | none => rfl
  | some index =>
    cases (Tree.Record.of ["index", "column"] false tree).required 1 (Column.ofTree reals) with
    | none => rfl
    | some column => rfl

/-- A table that is decoded from a text holds the data that the text spells. -/
theorem Table.spells_of_decodeText {reals : Reals} {text : String} {t : Table}
    (h : decodeText (Table.ofTree reals) text = .ok t) :
    Spells (Sheet.ofTree reals) text t.sheet := by
  obtain ⟨s, hspells, ht⟩ := (decodesBy_ofTree reals).exists_spells h
  rwa [s.admitted_withIndex.keeps t ht]

/-- A series that is decoded from a text holds the data that the text spells. -/
theorem Series.spells_of_decodeText {reals : Reals} {text : String} {s : Series}
    (h : decodeText (Series.ofTree reals) text = .ok s) :
    Spells (Strip.ofTree reals) text s.strip := by
  obtain ⟨strip, hspells, hs⟩ := (decodesBy_ofTree reals).exists_spells h
  rwa [strip.admitted_withIndex.keeps s hs]

/-- A text that spells a sheet is accepted just if the sheet is shaped. -/
theorem Sheet.admitted_decodeText {reals : Reals} {text : String} {s : Sheet}
    (h : Spells (Sheet.ofTree reals) text s) :
    s.Admitted (.refused []) (decodeText (Table.ofTree reals) text) := by
  rw [(Table.decodesBy_ofTree reals).decodeText_eq h]
  exact s.admitted_withIndex.checked

/-- A text that spells a strip is accepted just if the strip is shaped. -/
theorem Strip.admitted_decodeText {reals : Reals} {text : String} {s : Strip}
    (h : Spells (Strip.ofTree reals) text s) :
    s.Admitted (.refused []) (decodeText (Series.ofTree reals) text) := by
  rw [(Series.decodesBy_ofTree reals).decodeText_eq h]
  exact s.admitted_withIndex.checked

end Tableflow
