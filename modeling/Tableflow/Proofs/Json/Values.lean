import Tableflow.Proofs.Json.Decoding

/-!
# Values that are read back

A text is parsed as a value if it is the text of one to some depth of nesting (`Parses`). The pretty
text of a value is parsed as what its parts are read as (`parses_pretty_iff`): arrays item by item
and objects member by member, sorted by name and with the last of equal names (`ReadsAs.array`,
`ReadsAs.object`). What the parts are read as is not looked into, so that it can be assumed of them.
-/

namespace Tableflow.Json

open List (Forall₂)

variable {reals : Reals} {depth : Nat}

/-! ## Items and members -/

theorem mapM_eq_some_iff_forall₂ {α β : Type} {f : α → Option β} {as : List α} {bs : List β} :
    as.mapM f = some bs ↔ Forall₂ (fun a b => f a = some b) as bs := by
  rw [mapM_eq_some_iff]
  induction as generalizing bs with
  | nil => cases bs <;> simp
  | cons a rest ih => cases bs <;> simp [ih]

namespace Tree

theorem asValue_array_iff {items : List Tree} {v : Value} :
    asValue reals (depth + 1) (.array items) = some v ↔
      ∃ values, v = .array values ∧
        Forall₂ (fun item value => asValue reals depth item = some value) items values := by
  rw [asValue, Option.map_eq_some_iff]
  refine exists_congr fun values => ?_
  rw [mapM_eq_some_iff_forall₂, and_comm, eq_comm]

theorem asValue_object_iff {members : List (Option String × Tree)} {v : Value} :
    asValue reals (depth + 1) (.object members) = some v ↔
      ∃ entries, v = .object (Dictionary.ofList entries).entries ∧
        Forall₂ (fun m entry => m.1 = some entry.1 ∧ asValue reals depth m.2 = some entry.2)
          members entries := by
  have hmember (m : Option String × Tree) (entry : String × Value) :
      (return (← m.1, ← asValue reals depth m.2) : Option (String × Value)) = some entry ↔
        m.1 = some entry.1 ∧ asValue reals depth m.2 = some entry.2 := by
    obtain ⟨name, value⟩ := entry
    simp [Option.bind_eq_some_iff]
  have hmembers (entries : List (String × Value)) :
      members.mapM (fun m => (return (← m.1, ← asValue reals depth m.2) :
        Option (String × Value))) = some entries ↔
      Forall₂ (fun m entry => m.1 = some entry.1 ∧ asValue reals depth m.2 = some entry.2)
        members entries := by
    simp only [mapM_eq_some_iff_forall₂, hmember]
  rw [asValue, asDictionary, Option.map_eq_some_iff]
  constructor
  · rintro ⟨d, hd, rfl⟩
    obtain ⟨entries, hentries, hd⟩ := Option.bind_eq_some_iff.1 hd
    cases hd
    exact ⟨entries, rfl, (hmembers entries).1 hentries⟩
  · rintro ⟨entries, rfl, hentries⟩
    exact ⟨_, Option.bind_eq_some_iff.2 ⟨entries, (hmembers entries).2 hentries, rfl⟩, rfl⟩

theorem asValue_mono {depth' : Nat} (hle : depth ≤ depth') {tree : Tree} {v : Value}
    (h : asValue reals depth tree = some v) : asValue reals depth' tree = some v := by
  induction depth generalizing depth' tree v with
  | zero => cases h
  | succ depth ih =>
    obtain ⟨depth', rfl⟩ := Nat.exists_eq_add_of_le' (Nat.zero_lt_of_lt hle)
    have hstep {tree v} : asValue reals depth tree = some v → asValue reals depth' tree = some v :=
      ih (by omega)
    cases tree with
    | array items =>
      obtain ⟨values, rfl, hvalues⟩ := asValue_array_iff.1 h
      exact asValue_array_iff.2 ⟨values, rfl, hvalues.imp fun _ _ => hstep⟩
    | object members =>
      obtain ⟨entries, rfl, hentries⟩ := asValue_object_iff.1 h
      exact asValue_object_iff.2 ⟨entries, rfl, hentries.imp fun _ _ hm => ⟨hm.1, hstep hm.2⟩⟩
    | _ => exact h

end Tree

/-- Bounds that grow can be chosen once for two lists. -/
theorem exists_forall₂_bound {α β : Type} {P : Nat → α → β → Prop} {as : List α} {bs : List β}
    (hmono : ∀ n k a b, n ≤ k → P n a b → P k a b)
    (h : Forall₂ (fun a b => ∃ n, P n a b) as bs) : ∃ n, Forall₂ (P n) as bs := by
  induction h with
  | nil => exact ⟨0, .nil⟩
  | cons hab _ ih =>
    obtain ⟨n, hn⟩ := hab
    obtain ⟨k, hk⟩ := ih
    exact ⟨max n k, .cons (hmono _ _ _ _ (Nat.le_max_left n k) hn)
      (hk.imp fun _ _ => hmono _ _ _ _ (Nat.le_max_right n k))⟩

namespace Value

/-- What a written value is read as, to some depth of nesting. -/
def ReadsAs (reals : Reals) (written read : Value) : Prop :=
  ∃ depth, written.tree.asValue reals depth = some read

theorem ReadsAs.unique {v read read' : Value} (h : v.ReadsAs reals read)
    (h' : v.ReadsAs reals read') : read = read' := by
  obtain ⟨depth, h⟩ := h
  obtain ⟨depth', h'⟩ := h'
  have hmax := Tree.asValue_mono (Nat.le_max_left depth depth') h
  rw [Tree.asValue_mono (Nat.le_max_right depth depth') h'] at hmax
  exact (Option.some.inj hmax).symm

theorem readsAs_null : Value.null.ReadsAs reals .null := ⟨1, rfl⟩

theorem readsAs_string (s : String) : (Value.string s).ReadsAs reals (.string s) := ⟨1, rfl⟩

theorem ReadsAs.array {items values : List Value} (h : Forall₂ (ReadsAs reals) items values) :
    (Value.array items).ReadsAs reals (.array values) := by
  obtain ⟨depth, hdepth⟩ := exists_forall₂_bound
    (P := fun depth (item value : Value) => item.tree.asValue reals depth = some value)
    (fun n k item value hle => Tree.asValue_mono hle) h
  refine ⟨depth + 1, ?_⟩
  rw [tree, trees_eq_map, Tree.asValue_array_iff]
  exact ⟨values, rfl, List.forall₂_map_left_iff.2 hdepth⟩

/-- What the members of a written object are read as, before they are sorted. -/
def MembersReadAs (reals : Reals) (members entries : List (String × Value)) : Prop :=
  Forall₂ (fun m entry => m.1 = entry.1 ∧ m.2.ReadsAs reals entry.2) members entries

theorem ReadsAs.object {members entries : List (String × Value)}
    (h : MembersReadAs reals members entries) :
    (Value.object members).ReadsAs reals (.object (Dictionary.ofList entries).entries) := by
  have hbound : Forall₂ (fun (m entry : String × Value) => ∃ depth,
      m.1 = entry.1 ∧ m.2.tree.asValue reals depth = some entry.2) members entries :=
    h.imp fun m entry ⟨hname, depth, hdepth⟩ => ⟨depth, hname, hdepth⟩
  obtain ⟨depth, hdepth⟩ := exists_forall₂_bound
    (fun n k m entry hle hm => ⟨hm.1, Tree.asValue_mono hle hm.2⟩) hbound
  refine ⟨depth + 1, ?_⟩
  rw [tree, Tree.memberTrees_eq_map, Tree.asValue_object_iff]
  refine ⟨entries, rfl, List.forall₂_map_left_iff.2 (hdepth.imp fun m entry hm => ?_)⟩
  exact ⟨congrArg some hm.1, hm.2⟩

/-- An object whose members stand in the order of their names keeps the order. -/
theorem ReadsAs.sorted {members entries : List (String × Value)}
    (hmembers : members.Pairwise fun a b => a.1 < b.1)
    (h : MembersReadAs reals members entries) :
    (Value.object members).ReadsAs reals (.object entries) := by
  have hnames : members.map (·.1) = entries.map (·.1) := by
    have hfirst : Forall₂ (fun m entry => m.1 = entry.1) members entries := h.imp fun _ _ hm => hm.1
    rwa [← List.forall₂_eq_eq_eq, List.forall₂_map_left_iff, List.forall₂_map_right_iff]
  have hentries : entries.Pairwise fun a b => a.1 < b.1 := by
    rw [Dictionary.ascending_iff_keys, ← hnames]
    exact Dictionary.ascending_iff_keys.1 hmembers
  have hread := ReadsAs.object h
  rwa [Dictionary.ofList_entries ⟨entries, hentries⟩] at hread

/-- The member of an object under a name. -/
def member? : Value → String → Option Value
  | .object members, name => members.lookup name
  | _, _ => none

/-- An object whose members have distinct names is read as one that has their values under these
names and nothing else. -/
theorem ReadsAs.exists_record {members entries : List (String × Value)}
    (hnames : (entries.map (·.1)).Nodup)
    (h : MembersReadAs reals members entries) :
    ∃ doc, (Value.object members).ReadsAs reals doc ∧
      ∀ name value, doc.member? name = some value ↔ (name, value) ∈ entries :=
  ⟨_, .object h, fun _ _ => Dictionary.find?_ofList_eq_some_iff hnames⟩

end Value

/-! ## Texts -/

/-- A text is parsed as a value, to some depth of nesting. -/
def Parses (reals : Reals) (text : String) (v : Value) : Prop :=
  ∃ depth, decodeText
    (fun tree => (.ofOption (tree.asValue reals depth) : Decoded Empty Value)) text = .ok v

/-- The pretty text of a value is parsed as what the value is read as. -/
theorem parses_pretty_iff {w v : Value} : Parses reals w.pretty v ↔ w.ReadsAs reals v := by
  refine exists_congr fun depth => ?_
  rw [decodeText_eq_ok_iff, Tree.read_pretty]
  cases w.tree.asValue reals depth with
  | none => simp [Decoded.ofOption]
  | some value => simp [Decoded.ofOption, skipSpace]

/-- A text is parsed as one value at most. -/
theorem Value.ReadsAs.parses_iff {w v other : Value} (h : w.ReadsAs reals v) :
    Parses reals w.pretty other ↔ other = v := by
  rw [parses_pretty_iff]
  constructor
  · exact fun hother => hother.unique h
  · rintro rfl
    exact h

end Tableflow.Json
