import Tableflow.Json.Decode
import Tableflow.Proofs.Dictionary
import Tableflow.Proofs.Json.Reading
import Tableflow.Proofs.Table.Rows

/-!
# Decoding what was written

What decoders make of the trees of written values: of scalars (`asNatural_tree`), of cells
(`asOptional_real_tree`, `asOptional_string_tree`), of lists and dictionaries (`asList_tree`,
`asDictionary_tree`), of records (`record_tree`, `required_tree`, `optional_tree`) and of choices
(`readChoice_tree`, `splitTag_tree`).

A double that is no number is written like an absent value. `plain` puts null in its place, which
changes no text (`compact_plain`, `pretty_plain`).
-/

namespace Tableflow.Json

/-! ## Doubles that are no numbers -/

namespace Value

mutual

/-- The value with null for every double that is no number. -/
def plain : Value → Value
  | .real x => if x.isFinite then .real x else .null
  | .array items => .array (plains items)
  | .object members => .object (plainMembers members)
  | v => v

def plains : List Value → List Value
  | [] => []
  | item :: rest => item.plain :: plains rest

def plainMembers : List (String × Value) → List (String × Value)
  | [] => []
  | (name, value) :: rest => (name, value.plain) :: plainMembers rest

end

theorem plains_eq_map (items : List Value) : plains items = items.map plain := by
  induction items with
  | nil => rfl
  | cons item rest ih => rw [plains, ih, List.map_cons]

mutual

theorem spaced_plain (spacing : Spacing) (level : Nat) :
    ∀ v : Value, v.plain.spaced spacing level = v.spaced spacing level
  | .null | .bool _ | .integer _ | .string _ | .array [] | .object [] => by
    simp [plain, plains, plainMembers]
  | .real x => by
    by_cases h : x.isFinite <;> simp [plain, spaced, writeReal, h]
  | .array (item :: rest) => by
    simp [plain, plains, spaced, spaced_plain spacing (level + 1) item,
      spacedItems_plains spacing level rest]
  | .object ((name, value) :: rest) => by
    simp [plain, plainMembers, spaced, spaced_plain spacing (level + 1) value,
      spacedMembers_plainMembers spacing level rest]

theorem spacedItems_plains (spacing : Spacing) (level : Nat) :
    ∀ items, spacedItems spacing level (plains items) = spacedItems spacing level items
  | [] => rfl
  | item :: rest => by
    simp [plains, spacedItems, spaced_plain spacing (level + 1) item,
      spacedItems_plains spacing level rest]

theorem spacedMembers_plainMembers (spacing : Spacing) (level : Nat) :
    ∀ members, spacedMembers spacing level (plainMembers members) =
      spacedMembers spacing level members
  | [] => rfl
  | (name, value) :: rest => by
    simp [plainMembers, spacedMembers, spaced_plain spacing (level + 1) value,
      spacedMembers_plainMembers spacing level rest]

end

theorem compact_plain (v : Value) : v.plain.compact = v.compact := by
  rw [compact, compact, ← spaced_compact 0, ← spaced_compact 0, spaced_plain]

theorem pretty_plain (v : Value) : v.plain.pretty = v.pretty := by
  rw [pretty, pretty, ← spaced_pretty, ← spaced_pretty, spaced_plain]

end Value

namespace Tree

variable {α β : Type}

/-! ## Scalars and lists -/

theorem value_integerLiteral (reals : Reals) {n : Nat} (h : n < wordLimit) :
    (integerLiteral n).value reals = some (.integer n) := by
  simp [Literal.value, Literal.isWhole, integerLiteral, Decimal.natOfDigits_toDigits, h]

/-- A word is read back. -/
theorem asNatural_tree {n : Nat} (h : n < wordLimit) :
    asNatural (Value.natural n).tree = some n := by
  rw [Value.natural, Value.tree, asNatural, value_integerLiteral exactReal h]

/-- A double that is no number is read as an absent value, if the others are read back. -/
theorem asOptional_real_tree {reals : Reals} {value : Option Double}
    (h : ∀ x ∈ value, x.isFinite → asReal reals (Value.real x).tree = some x) :
    asOptional (asReal reals) (Value.optional .real value).tree =
      some (value.filter Double.isFinite) := by
  cases value with
  | none => rfl
  | some x =>
    have hx := h x rfl
    rw [Value.tree] at hx
    by_cases hfinite : x.isFinite
    · rw [if_pos hfinite] at hx
      simp [Value.optional, Value.tree, asOptional, Option.filter, hfinite, hx hfinite]
    · simp [Value.optional, Value.tree, asOptional, Option.filter, hfinite]

theorem asOptional_string_tree (value : Option String) :
    asOptional asText (Value.optional .string value).tree = some value := by
  cases value <;> rfl

/-- A list is read item by item. -/
theorem asList_tree {write : α → Value} {decode : Tree → Option β} {read : α → β} {items : List α}
    (h : ∀ a ∈ items, decode (write a).tree = some (read a)) :
    asList decode (Value.array (items.map write)).tree = some (items.map read) := by
  rw [Value.tree, asList, Value.trees_eq_map, mapM_eq_some_iff]
  simpa using h

theorem memberTrees_eq_map (members : List (String × Value)) :
    Value.memberTrees members = members.map fun m => (some m.1, m.2.tree) := by
  induction members with
  | nil => rfl
  | cons m rest ih => rw [Value.memberTrees, ih, List.map_cons]

/-- A dictionary is read entry by entry. -/
theorem asDictionary_tree {write : α → Value} {decode : Tree → Option α} {d : Dictionary α}
    (h : ∀ entry ∈ d.entries, decode (write entry.2).tree = some entry.2) :
    asDictionary decode (Value.object (d.map write).entries).tree = some d := by
  have hentries : ((d.map write).entries.map fun m => (some m.1, m.2.tree)).mapM
      (fun (member : Option String × Tree) =>
        (return (← member.1, ← decode member.2) : Option (String × α))) = some d.entries := by
    rw [mapM_eq_some_iff, Dictionary.map, List.map_map, List.map_map, List.map_inj_left]
    intro entry hentry
    simp [h entry hentry]
  rw [Value.tree, memberTrees_eq_map]
  simp only [asDictionary]
  rw [hentries, Option.bind_eq_bind, Option.bind_some, Dictionary.ofList_entries]
  rfl

/-! ## Records -/

/-- The members of an object in their order, numbered from a number on. -/
def numbered (first : Nat) (members : List (String × Value)) : List Member :=
  members.mapIdx fun i m => ⟨first + i, first + i, m.2.tree⟩

theorem numbered_cons (first : Nat) (m : String × Value) (rest : List (String × Value)) :
    numbered first (m :: rest) = ⟨first, first, m.2.tree⟩ :: numbered (first + 1) rest := by
  simp [numbered, Nat.add_assoc, Nat.add_comm 1]

theorem idxOf?_append_cons {name : String} {front : List String} (h : name ∉ front)
    (back : List String) : (front ++ name :: back).idxOf? name = some front.length := by
  have hfront : front.findIdx? (· == name) = none := by
    rw [List.findIdx?_eq_none_iff]
    exact fun other hother => beq_false_of_ne fun heq => h (heq ▸ hother)
  simp [List.idxOf?, List.findIdx?_append, hfront, List.findIdx?_cons]

/-- Members with distinct names are added to a record as they come. -/
theorem ofMembers_tree {names front : List String} {members : List (String × Value)}
    (hnames : names = front ++ members.map Prod.fst) (hnodup : names.Nodup) {found : List Member}
    (hfound : ∀ m ∈ found, m.name < front.length) :
    Record.ofMembers names found front.length (Value.memberTrees members) =
      ⟨found.reverse ++ numbered front.length members, true⟩ := by
  -- what was found before is numbered below the next member, so that this one is no repetition
  induction members generalizing front found with
  | nil => simp [Value.memberTrees, Record.ofMembers, numbered]
  | cons m rest ih =>
    obtain ⟨name, value⟩ := m
    rw [List.map_cons] at hnames
    have hname : name ∉ front := fun hmem =>
      (List.nodup_append.1 (hnames ▸ hnodup)).2.2 name hmem name List.mem_cons_self rfl
    have hfresh : (found.any fun m => m.name = front.length) = false := by
      rw [List.any_eq_false]
      exact fun m hm => by simpa using Nat.ne_of_lt (hfound m hm)
    have hrest := @ih (front ++ [name]) (by simp [hnames])
      (⟨front.length, front.length, value.tree⟩ :: found) (by
        rw [List.length_append]
        exact List.forall_mem_cons.2
          ⟨Nat.lt_succ_self _, fun m hm => Nat.lt_succ_of_lt (hfound m hm)⟩)
    rw [List.length_append, List.length_singleton] at hrest
    rw [Value.memberTrees, Record.ofMembers, hnames, idxOf?_append_cons hname, ← hnames]
    simp only [hfresh, Bool.false_eq_true, if_false]
    rw [hrest, numbered_cons, List.reverse_cons, List.append_assoc, List.singleton_append]

/-- The tree of an object is a record of its members. -/
theorem record_tree {names : List String} {members : List (String × Value)}
    (hnames : names = members.map Prod.fst) (hnodup : names.Nodup) (defaults : Bool) :
    Record.of names defaults (Value.object members).tree = ⟨numbered 0 members, true⟩ := by
  rw [Value.tree, Record.of]
  exact @ofMembers_tree names [] members hnames hnodup [] (by simp)

theorem find?_numbered (first i : Nat) (members : List (String × Value)) :
    (numbered first members).find? (·.name = first + i) =
      members[i]?.map fun m => ⟨first + i, first + i, m.2.tree⟩ := by
  induction members generalizing first i with
  | nil => rfl
  | cons head rest ih =>
    rw [numbered_cons]
    cases i with
    | zero => simp
    | succ i =>
      have hrest := ih (first + 1) i
      rw [Nat.add_right_comm] at hrest
      rw [List.find?_cons_of_neg (by simp), List.getElem?_cons_succ]
      exact hrest

section

variable {names : List String} {members : List (String × Value)}
  (hnames : names = members.map Prod.fst) (hnodup : names.Nodup) (i : Nat)
  (decode : Tree → Option α)
include hnames hnodup

theorem member?_tree (defaults : Bool) :
    (Record.of names defaults (Value.object members).tree).member? i =
      members[i]?.map fun m => m.2.tree := by
  have hfind := find?_numbered 0 i members
  rw [Nat.zero_add] at hfind
  rw [record_tree hnames hnodup, Record.member?, hfind, Option.map_map]
  rfl

theorem required_tree : (Record.of names false (Value.object members).tree).required i decode =
    members[i]?.bind fun m => decode m.2.tree := by
  rw [Record.required, member?_tree hnames hnodup, record_tree hnames hnodup]
  cases members[i]? <;> rfl

theorem optional_tree : (Record.of names false (Value.object members).tree).optional i decode =
    members[i]?.elim (some none) fun m => asOptional decode m.2.tree := by
  rw [Record.optional, Record.defaulted, member?_tree hnames hnodup, record_tree hnames hnodup]
  cases members[i]? <;> rfl

end

section

variable {first second : String} (h : first ≠ second) (u v : Value) (decode : Tree → Option α)
include h

theorem record_pair : Record.of [first, second] false
    (Value.object [(first, u), (second, v)]).tree =
      ⟨numbered 0 [(first, u), (second, v)], true⟩ :=
  @record_tree [first, second] [(first, u), (second, v)] rfl (by simpa using h) false

theorem required_first : (Record.of [first, second] false
    (Value.object [(first, u), (second, v)]).tree).required 0 decode = decode u.tree := by
  rw [record_pair h]
  rfl

theorem required_second : (Record.of [first, second] false
    (Value.object [(first, u), (second, v)]).tree).required 1 decode = decode v.tree := by
  rw [record_pair h]
  rfl

end

/-! ## Choices -/

/-- A choice is read by the decoder for its tag. -/
theorem readChoice_tree {tag content : String} (h : tag ≠ content) (name : String) (v : Value)
    (decode : String → Tree → Option α) :
    readChoice tag content decode (Value.object [(tag, .string name), (content, v)]).tree =
      decode name v.tree := by
  have htag : choiceTag (Value.object [(tag, .string name), (content, v)]).tree =
      asAlternative := rfl
  simp only [readChoice, htag, required_first h, required_second h]
  rfl

section

variable {reals : Reals} {depth : Nat}

theorem isHoldable_natural {n : Nat} (h : n < wordLimit) :
    isHoldable reals depth (Value.natural n).tree := by
  rw [Value.natural, Value.tree, isHoldable, value_integerLiteral reals h]
  rfl

theorem isHoldable_real {x : Double}
    (h : x.isFinite → asReal reals (Value.real x).tree = some x) :
    isHoldable reals depth (Value.real x).tree := by
  rw [Value.tree] at h ⊢
  split
  · next hfinite =>
    have hreal := h hfinite
    rw [if_pos hfinite, asReal] at hreal
    rw [isHoldable, Option.isSome_iff_ne_none]
    intro hnone
    rw [hnone] at hreal
    cases hreal
  · rfl

theorem isHoldable_optional_real {value : Option Double}
    (h : ∀ x ∈ value, x.isFinite → asReal reals (Value.real x).tree = some x) :
    isHoldable reals depth (Value.optional .real value).tree := by
  cases value with
  | none => rfl
  | some x => exact isHoldable_real (h x rfl)

theorem isHoldable_optional_string (value : Option String) :
    isHoldable reals depth (Value.optional .string value).tree := by
  cases value <;> rfl

theorem membersAreHoldable_tree {members : List (String × Value)}
    (h : ∀ m ∈ members, isHoldable reals depth m.2.tree) :
    membersAreHoldable reals depth (Value.memberTrees members) := by
  induction members with
  | nil => rfl
  | cons m rest ih =>
    obtain ⟨hm, hrest⟩ := List.forall_mem_cons.1 h
    rw [Value.memberTrees, membersAreHoldable, hm, ih hrest]
    rfl

/-- An object is set aside if its members can be, one level below. -/
theorem isHoldable_object {members : List (String × Value)}
    (h : ∀ m ∈ members, isHoldable reals depth m.2.tree) :
    isHoldable reals (depth + 1) (Value.object members).tree := by
  rw [Value.tree, isHoldable]
  exact membersAreHoldable_tree h

end

/-- The members beside a tag are set aside if they can be, and read when the tag is known. -/
theorem splitTag_tree {reals : Reals} {depth : Nat} {tag : String}
    {members : List (String × Value)} (h : tag ∉ members.map Prod.fst)
    (hmembers : ∀ m ∈ members, isHoldable reals depth m.2.tree) (name : String) :
    splitTag reals depth tag (Value.object ((tag, .string name) :: members)).tree =
      some (name, (Value.object members).tree) := by
  have hother : ∀ member ∈ Value.memberTrees members, member.1 ≠ some tag := by
    rw [memberTrees_eq_map, List.forall_mem_map]
    exact fun m hm heq => h (Option.some.inj heq ▸ List.mem_map_of_mem hm)
  have htag : (Value.memberTrees members).filter (fun member => member.1 = some tag) = [] := by
    simpa using hother
  have hrest : (Value.memberTrees members).filter (fun member => !(decide (member.1 = some tag))) =
      Value.memberTrees members := by
    simpa using hother
  rw [Value.tree, Value.memberTrees, splitTag, List.filter_cons_of_pos (by simp), htag,
    List.filter_cons_of_neg (by simp), hrest]
  dsimp only
  rw [guard, if_pos (membersAreHoldable_tree hmembers)]
  rfl

end Tree

end Tableflow.Json
