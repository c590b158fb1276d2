import Mathlib.Data.List.Forall2
import Tableflow.Proofs.Except
import Tableflow.Proofs.Table.Rows

/-!
# Picking rows again

Positions count the rows of the table that rows are picked from, while the ids in its index go back
to the source. So the rows that are picked from picked rows are those at the positions that the
second pick leads to among the first ones (`PicksByPosition`). And if the rows of the source are
numbered from zero, then every table that is reached by picking again and again is what the source
has at the ids of its rows (`Table.TracesTo`).

The main statement is `picking_composes`.
-/

namespace Tableflow

/-! ## Items at positions -/

section

variable {α : Type u} {items : List α} {first second : List Nat}

theorem mem_of_mem_pick {a : α} {positions : List Nat} (h : a ∈ pick items positions) :
    a ∈ items := by
  rw [pick_eq_filterMap, List.mem_filterMap] at h
  obtain ⟨p, -, hp⟩ := h
  exact List.mem_of_getElem? hp

/-- Items picked from picked items are picked at the positions that lead to them. -/
theorem pick_pick (h : ∀ p ∈ first, p < items.length) (second : List Nat) :
    pick (pick items first) second = pick items (pick first second) := by
  calc pick (pick items first) second
      = second.filterMap fun q => first[q]?.bind (items[·]?) := by
        rw [pick_eq_filterMap]
        simp only [getElem?_pick h]
    _ = pick items (pick first second) := by
        rw [pick_eq_filterMap items, pick_eq_filterMap first, List.filterMap_filterMap]

/-- Where all positions are in range, there is an item for each of them. -/
theorem pick_eq_pmap {positions : List Nat} (h : ∀ p ∈ positions, p < items.length) :
    pick items positions = positions.pmap (fun p (_ : p < items.length) => items[p]) h := by
  induction positions with
  | nil => rfl
  | cons p rest ih =>
    obtain ⟨hp, hrest⟩ := List.forall_mem_cons.1 h
    rw [pick_cons hp, List.pmap_cons, ih hrest]

end

/-! ## Columns -/

namespace Column

variable {c : Column} {first : List Nat}

theorem take_take (h : ∀ p ∈ first, p < c.length) (second : List Nat) :
    (c.take first).take second = c.take (pick first second) := by
  obtain ⟨name, cells⟩ := c
  cases cells with
  | numeric values => simp only [take, Cells.take, pick_pick h]
  | categorical values => simp only [take, Cells.take, pick_pick h]

theorem take_range {rows : Nat} (h : c.length = rows) : c.take (List.range rows) = c := by
  subst h
  obtain ⟨name, cells⟩ := c
  cases cells with
  | numeric values => simp only [take, Cells.take, length, Cells.length, pick_range]
  | categorical values => simp only [take, Cells.take, length, Cells.length, pick_range]

end Column

/-! ## Picking by position -/

/-- Rows are picked by position: all of them in their order are everything, picked rows are picked
from by the positions that they have now, and the first position beyond these is refused, whatever
stands at it in what they were picked from. -/
structure PicksByPosition {α : Type} (rows : α → Nat)
    (take : α → List Nat → Except TableDefect α) : Prop where
  all : ∀ a, take a (List.range (rows a)) = .ok a
  again : ∀ a first second, (∀ p ∈ first, p < rows a) →
    ∀ inFirst : ∀ q ∈ second, q < first.length,
      ∃ b c, take a first = .ok b ∧ take b second = .ok c ∧
        take a (second.pmap (fun q (_ : q < first.length) => first[q]) inFirst) = .ok c
  beyond : ∀ a first b, take a first = .ok b → ∀ front q back, (∀ p ∈ front, p < first.length) →
    first.length ≤ q →
      take b (front ++ q :: back) = .error (.positionOutOfRange q first.length)

/-- It is enough that the rows at given positions can be had, and that having them twice is having
them at once. -/
theorem PicksByPosition.of_select {α : Type} {rows : α → Nat}
    {take : α → List Nat → Except TableDefect α}
    {select : (a : α) → (positions : List Nat) → (∀ p ∈ positions, p < rows a) → α}
    (htake : ∀ a positions h, take a positions = .ok (select a positions h))
    (herror : ∀ a positions p, firstBeyond positions (rows a) = some p →
      take a positions = .error (.positionOutOfRange p (rows a)))
    (hrows : ∀ a positions h, rows (select a positions h) = positions.length)
    (hall : ∀ a h, select a (List.range (rows a)) h = a)
    (hagain : ∀ a first second h h' h'',
      select (select a first h) second h' = select a (pick first second) h'') :
    PicksByPosition rows take := by
  refine ⟨fun a => ?_, fun a first second inRows inFirst => ?_, fun a first b hb => ?_⟩
  · have hrange : ∀ p ∈ List.range (rows a), p < rows a := fun p hp => List.mem_range.1 hp
    rw [htake a _ hrange, hall]
  · have inPicked : ∀ q ∈ second, q < rows (select a first inRows) := by rwa [hrows]
    have inBoth : ∀ p ∈ pick first second, p < rows a := fun p hp => inRows p (mem_of_mem_pick hp)
    refine ⟨_, _, htake a first inRows, htake _ second inPicked, ?_⟩
    rw [← pick_eq_pmap inFirst, htake a _ inBoth, hagain a first second inRows inPicked inBoth]
  · intro front q back hfront hq
    have hlength : rows b = first.length := by
      cases hbeyond : firstBeyond first (rows a) with
      | some p =>
        rw [herror a first p hbeyond] at hb
        cases hb
      | none =>
        have inRows := firstBeyond_eq_none_iff.1 hbeyond
        rw [htake a first inRows] at hb
        rw [← Except.ok.inj hb, hrows]
    rw [herror b _ q (firstBeyond_eq_some_iff.2 ⟨front, back, rfl, hlength ▸ hfront, hlength ▸ hq⟩),
      hlength]

namespace Table

variable {t : Table} {first : List Nat}

theorem ext {t u : Table} (hindex : t.index = u.index) (hcolumns : t.columns = u.columns) :
    t = u := by
  obtain ⟨index, columns, _, _⟩ := t
  obtain ⟨index', columns', _, _⟩ := u
  obtain rfl : index = index' := hindex
  obtain rfl : columns = columns' := hcolumns
  rfl

theorem select_select (h : ∀ p ∈ first, p < t.numRows) (second : List Nat)
    (h' : ∀ q ∈ second, q < (t.select first h).numRows)
    (h'' : ∀ p ∈ pick first second, p < t.numRows) :
    (t.select first h).select second h' = t.select (pick first second) h'' := by
  refine ext (pick_pick h second) ?_
  simp only [select, List.map_map]
  refine List.map_congr_left fun c hc => Column.take_take ?_ second
  rwa [t.length_columns c hc]

theorem select_range (t : Table) (h : ∀ p ∈ List.range t.numRows, p < t.numRows) :
    t.select (List.range t.numRows) h = t := by
  refine ext (pick_range t.index) ?_
  calc t.columns.map (·.take (List.range t.numRows))
      = t.columns.map id :=
        List.map_congr_left fun c hc => Column.take_range (t.length_columns c hc)
    _ = t.columns := List.map_id _

theorem picksByPosition : PicksByPosition numRows take :=
  .of_select (fun _ _ => take_of_lt) (fun _ _ _ => take_of_firstBeyond) (fun _ _ => length_pick)
    select_range fun _ _ second h => select_select h second

end Table

namespace Series

variable {s : Series} {first : List Nat}

theorem ext {s u : Series} (hindex : s.index = u.index) (hcolumn : s.column = u.column) :
    s = u := by
  obtain ⟨index, column, _⟩ := s
  obtain ⟨index', column', _⟩ := u
  obtain rfl : index = index' := hindex
  obtain rfl : column = column' := hcolumn
  rfl

theorem select_select (h : ∀ p ∈ first, p < s.length) (second : List Nat)
    (h' : ∀ q ∈ second, q < (s.select first h).length)
    (h'' : ∀ p ∈ pick first second, p < s.length) :
    (s.select first h).select second h' = s.select (pick first second) h'' := by
  refine ext (pick_pick h second) (Column.take_take ?_ second)
  rwa [s.length_column]

theorem select_range (s : Series) (h : ∀ p ∈ List.range s.length, p < s.length) :
    s.select (List.range s.length) h = s :=
  ext (pick_range s.index) (Column.take_range s.length_column)

theorem picksByPosition : PicksByPosition length take :=
  .of_select (fun _ _ => take_of_lt) (fun _ _ _ => take_of_firstBeyond) (fun _ _ => length_pick)
    select_range fun _ _ second h => select_select h second

end Series

/-! ## Chains of picks -/

/-- Each list of a chain holds positions of rows that the list before it has picked. -/
def WithinRows : (rows : Nat) → (chain : List (List Nat)) → Prop
  | _, [] => True
  | rows, positions :: rest => (∀ p ∈ positions, p < rows) ∧ WithinRows positions.length rest

namespace Table

/-- Picks rows by each list of a chain in turn. -/
def takeAll (t : Table) (chain : List (List Nat)) : Except TableDefect Table :=
  chain.foldlM take t

/-- The ids of a table are the positions that its rows have in a source: column by column the cell in
a row stands at the id of the row, and the source has the table at its ids. -/
structure TracesTo (t source : Table) : Prop where
  cells : List.Forall₂ (fun c d : Column => c.name = d.name ∧ c.columnType = d.columnType ∧
    ∀ i, c.cell? i = t.index[i]?.bind d.cell?) t.columns source.columns
  recovered : source.take t.index = .ok t

variable {t u source : Table} {positions ids : List Nat} {chain : List (List Nat)}

theorem takeAll_cons (t : Table) (positions : List Nat) (chain : List (List Nat)) :
    t.takeAll (positions :: chain) = t.take positions >>= (·.takeAll chain) :=
  List.foldlM_cons

/-- A chain of picks succeeds just if each of them stays within the rows that are left. -/
theorem exists_takeAll_iff : (∃ u, t.takeAll chain = .ok u) ↔ WithinRows t.numRows chain := by
  induction chain generalizing t with
  | nil => exact iff_of_true ⟨t, rfl⟩ trivial
  | cons positions rest ih =>
    rw [takeAll_cons, WithinRows]
    cases hbeyond : firstBeyond positions t.numRows with
    | some p =>
      have hnot : ¬ ∀ q ∈ positions, q < t.numRows := fun hlt => by
        rw [firstBeyond_eq_none_iff.2 hlt] at hbeyond
        cases hbeyond
      rw [take_of_firstBeyond hbeyond]
      exact iff_of_false (fun ⟨_, hu⟩ => nomatch hu) fun h => hnot h.1
    | none =>
      have hlt := firstBeyond_eq_none_iff.1 hbeyond
      have hrows : (t.select positions hlt).numRows = positions.length := length_pick hlt
      rw [take_of_lt hlt, and_iff_right hlt, ← hrows]
      exact ih

theorem select_of_eq_select {hids : ∀ p ∈ ids, p < source.numRows} (h : t = source.select ids hids)
    (hlt : ∀ p ∈ positions, p < t.numRows) (hpicked : ∀ p ∈ pick ids positions, p < source.numRows) :
    t.select positions hlt = source.select (pick ids positions) hpicked := by
  subst h
  exact select_select hids positions hlt hpicked

/-- If a source has a table at its ids, it has at their ids what is picked from the table. -/
theorem recovered_of_take (h : source.take t.index = .ok t) (htake : t.take positions = .ok u) :
    source.take u.index = .ok u := by
  obtain ⟨hlt, rfl⟩ := exists_of_take_eq_ok htake
  obtain ⟨hids, ht⟩ := exists_of_take_eq_ok h
  have hpicked : ∀ p ∈ pick t.index positions, p < source.numRows := fun p hp =>
    hids p (mem_of_mem_pick hp)
  have hindex : (t.select positions hlt).index = pick t.index positions := rfl
  rw [hindex, take_of_lt hpicked, select_of_eq_select ht hlt hpicked]

theorem recovered_of_takeAll (h : source.take t.index = .ok t) (hall : t.takeAll chain = .ok u) :
    source.take u.index = .ok u := by
  induction chain generalizing t with
  | nil => rwa [← Except.ok.inj hall]
  | cons positions rest ih =>
    rw [takeAll_cons, bind_eq_ok_iff] at hall
    obtain ⟨picked, htake, hrest⟩ := hall
    exact ih (recovered_of_take h htake) hrest

theorem tracesTo_of_recovered (h : source.take t.index = .ok t) : t.TracesTo source := by
  obtain ⟨hids, ht⟩ := exists_of_take_eq_ok h
  refine ⟨?_, h⟩
  have hcolumns : t.columns = source.columns.map (·.take t.index) := congrArg columns ht
  rw [hcolumns, List.forall₂_map_left_iff, List.forall₂_same]
  intro c hc
  have hlength : ∀ p ∈ t.index, p < c.length := by rwa [source.length_columns c hc]
  exact ⟨rfl, c.cells.columnType_take t.index, Column.cell?_take hlength⟩

/-- A table that is made without an index has its rows numbered from zero. -/
theorem index_of_ofColumns {columns : List Column} (h : ofColumns columns = .ok t) :
    t.index = List.range t.numRows := by
  rw [ofColumns, withIndex] at h
  split at h
  · cases h
  · rw [← Except.ok.inj h, numRows, List.length_range]

end Table

/-- Picking rows twice is picking them once, picking all rows changes nothing, positions are those of
the rows at hand; and along any chain of picks from a table whose rows are numbered from zero, the
ids tell where in that table the rows come from. -/
theorem picking_composes :
    PicksByPosition Table.numRows Table.take ∧ PicksByPosition Series.length Series.take ∧
      ∀ source : Table, source.index = List.range source.numRows → ∀ chain,
        ((∃ t, source.takeAll chain = .ok t) ↔ WithinRows source.numRows chain) ∧
          ∀ t, source.takeAll chain = .ok t → t.TracesTo source := by
  refine ⟨Table.picksByPosition, Series.picksByPosition, fun source hindex chain => ?_⟩
  refine ⟨Table.exists_takeAll_iff, fun t ht => ?_⟩
  have hsource : source.take source.index = .ok source := by
    rw [hindex]
    exact Table.picksByPosition.all source
  exact Table.tracesTo_of_recovered (Table.recovered_of_takeAll hsource ht)

/-- A column of each type, with a missing cell in both. -/
def sortedColumns : List Column :=
  [⟨"height", .numeric [some .zero, none, some .one, some .two]⟩,
    ⟨"name", .categorical [some "fern", some "moss", none, some "oak"]⟩]

/-- The last three rows backwards, and of these the last one and the first one: the ids are those of
the source, and so is what a position means that is none of the three. -/
theorem sortedColumns_picked :
    ∃ source t u, Table.ofColumns sortedColumns = .ok source ∧ source.take [3, 2, 1] = .ok t ∧
      t.take [2, 0] = .ok u ∧ source.take [1, 3] = .ok u ∧ u.index = [1, 3] ∧
      source.takeAll [[3, 2, 1], [2, 0]] = .ok u ∧ u.TracesTo source ∧
      t.take [0, 3] = .error (.positionOutOfRange 3 3) := by
  obtain ⟨htables, -, htraces⟩ := picking_composes
  obtain ⟨source, hsource⟩ : ∃ source, Table.ofColumns sortedColumns = .ok source := ⟨_, rfl⟩
  have hindex := Table.index_of_ofColumns hsource
  have hrows : source.numRows = 4 := by
    rw [← Except.ok.inj hsource]
    rfl
  obtain ⟨t, u, ht, hu, hboth⟩ :=
    htables.again source [3, 2, 1] [2, 0] (by rw [hrows]; decide) (by decide)
  have hchain : source.takeAll [[3, 2, 1], [2, 0]] = .ok u := by
    rw [Table.takeAll_cons, ht, ok_bind, Table.takeAll_cons, hu]
    rfl
  have hu_index : u.index = [1, 3] := by
    obtain ⟨hlt, rfl⟩ := Table.exists_of_take_eq_ok hboth
    calc (source.select _ hlt).index = pick source.index [1, 3] := rfl
      _ = [1, 3] := by rw [hindex, hrows]; rfl
  refine ⟨source, t, u, hsource, ht, hu, hboth, hu_index, hchain, ?_, ?_⟩
  · exact (htraces source hindex _).2 u hchain
  · exact htables.beyond source [3, 2, 1] t ht [0] 3 [] (by decide) (by decide)

end Tableflow
