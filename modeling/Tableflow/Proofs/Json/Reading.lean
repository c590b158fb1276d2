import Tableflow.Proofs.Json.Numbers
import Tableflow.Proofs.Json.Strings

/-!
# Reading values back

A value is written with blanks between its parts, or with none (`Spacing`): `spaced` is the compact
and the pretty text in one. Whatever the spacing, the text is read as the tree of the value
(`read_spaced`), in which numbers are literals, and a double that is no number is null. So both
texts of a value are read as its tree and as nothing else (`read_compact`, `read_pretty`).
-/

namespace Tableflow.Json

/-! ## Spacing -/

/-- A text of white space. -/
def Blank (text : List Char) : Prop := ∀ c ∈ text, isSpace c

/-- The blanks in a text. -/
structure Spacing where
  /-- The blanks in front of the items and the closing bracket of a level. -/
  gap : Nat → List Char
  /-- The blanks behind a colon. -/
  afterColon : List Char
  blank_gap : ∀ level, Blank (gap level)
  blank_afterColon : Blank afterColon

namespace Spacing

/-- No blanks. -/
def compact : Spacing where
  gap _ := []
  afterColon := []
  blank_gap := by simp [Blank]
  blank_afterColon := by simp [Blank]

/-- A line for every item. -/
def pretty : Spacing where
  gap := Value.newline
  afterColon := [' ']
  blank_gap level := by
    intro c hc
    rcases List.mem_cons.1 hc with rfl | hc
    · rfl
    · rw [List.eq_of_mem_replicate hc]
      rfl
  blank_afterColon := by simp [Blank, isSpace]

@[simp]
theorem gap_compact (level : Nat) : compact.gap level = [] := rfl

@[simp]
theorem afterColon_compact : compact.afterColon = [] := rfl

@[simp]
theorem gap_pretty (level : Nat) : pretty.gap level = Value.newline level := rfl

@[simp]
theorem afterColon_pretty : pretty.afterColon = [' '] := rfl

end Spacing

namespace Value

variable (spacing : Spacing)

mutual

/-- The text of a value that stands at a level. -/
def spaced (level : Nat) : Value → List Char
  | .null => ['n', 'u', 'l', 'l']
  | .bool true => ['t', 'r', 'u', 'e']
  | .bool false => ['f', 'a', 'l', 's', 'e']
  | .integer n => writeInteger n
  | .real x => writeReal x
  | .string s => writeString s
  | .array [] => ['[', ']']
  | .array (item :: rest) =>
    '[' :: (spacing.gap (level + 1) ++ (spaced (level + 1) item ++ spacedItems level rest))
  | .object [] => ['{', '}']
  | .object ((name, value) :: rest) =>
    '{' :: (spacing.gap (level + 1) ++ (writeString name ++ ':' ::
      (spacing.afterColon ++ (spaced (level + 1) value ++ spacedMembers level rest))))

/-- The items after the first one, and the closing bracket. -/
def spacedItems (level : Nat) : List Value → List Char
  | [] => spacing.gap level ++ [']']
  | item :: rest =>
    ',' :: (spacing.gap (level + 1) ++ (spaced (level + 1) item ++ spacedItems level rest))

/-- The members after the first one, and the closing brace. -/
def spacedMembers (level : Nat) : List (String × Value) → List Char
  | [] => spacing.gap level ++ ['}']
  | (name, value) :: rest =>
    ',' :: (spacing.gap (level + 1) ++ (writeString name ++ ':' ::
      (spacing.afterColon ++ (spaced (level + 1) value ++ spacedMembers level rest))))

end

mutual

theorem spaced_pretty (level : Nat) : ∀ v : Value, v.spaced .pretty level = v.prettyChars level
  | .null | .bool true | .bool false | .integer _ | .real _ | .string _ | .array [] | .object [] =>
    by simp [spaced, prettyChars]
  | .array (item :: rest) => by
    simp [spaced, prettyChars, spaced_pretty (level + 1) item, spacedItems_pretty level rest]
  | .object ((name, value) :: rest) => by
    simp [spaced, prettyChars, spaced_pretty (level + 1) value, spacedMembers_pretty level rest]

theorem spacedItems_pretty (level : Nat) :
    ∀ items, spacedItems .pretty level items = prettyItems level items
  | [] => by simp [spacedItems, prettyItems]
  | item :: rest => by
    simp [spacedItems, prettyItems, spaced_pretty (level + 1) item, spacedItems_pretty level rest]

theorem spacedMembers_pretty (level : Nat) :
    ∀ members, spacedMembers .pretty level members = prettyMembers level members
  | [] => by simp [spacedMembers, prettyMembers]
  | (name, value) :: rest => by
    simp [spacedMembers, prettyMembers, spaced_pretty (level + 1) value,
      spacedMembers_pretty level rest]

end

mutual

theorem spaced_compact (level : Nat) : ∀ v : Value, v.spaced .compact level = v.compactChars
  | .null | .bool true | .bool false | .integer _ | .real _ | .string _ => by
    simp [spaced, compactChars]
  | .array [] => by simp [spaced, compactChars, compactItems]
  | .object [] => by simp [spaced, compactChars, compactMembers]
  | .array (item :: rest) => by
    simp [spaced, compactChars, spaced_compact (level + 1) item,
      spacedItems_compact level item rest]
  | .object ((name, value) :: rest) => by
    simp [spaced, compactChars, spaced_compact (level + 1) value,
      spacedMembers_compact level name value rest]

theorem spacedItems_compact (level : Nat) (item : Value) :
    ∀ items, item.compactChars ++ spacedItems .compact level items = compactItems (item :: items)
  | [] => by simp [spacedItems, compactItems]
  | next :: rest => by
    simp [spacedItems, compactItems, spaced_compact (level + 1) next,
      spacedItems_compact level next rest]

theorem spacedMembers_compact (level : Nat) (name : String) (value : Value) :
    ∀ members, writeString name ++ ':' ::
      (value.compactChars ++ spacedMembers .compact level members) =
        compactMembers ((name, value) :: members)
  | [] => by simp [spacedMembers, compactMembers]
  | (next, value') :: rest => by
    simp [spacedMembers, compactMembers, spaced_compact (level + 1) value',
      spacedMembers_compact level next value' rest]

end

end Value

/-! ## The tree of a value -/

/-- The literal that a finite double is written as. -/
def realLiteral (x : Double) : Literal :=
  ((readLiteral (writeReal x)).map Prod.fst).getD ⟨false, [], [], none⟩

theorem realLiteral_spec {x : Double} (h : x.isFinite) :
    (realLiteral x).WellFormed ∧ (realLiteral x).chars = writeReal x := by
  obtain ⟨n, hn, hchars⟩ := exists_literal_real h
  have hread : readLiteral (writeReal x) = some (n, []) := by
    simpa [hchars] using @readLiteral_chars n [] hn (by simp [Ended])
  rw [realLiteral, hread]
  exact ⟨hn, hchars⟩

namespace Value

mutual

/-- The tree of a value's text. -/
def tree : Value → Tree
  | .null => .null
  | .bool b => .bool b
  | .integer n => .number (integerLiteral n)
  | .real x => if x.isFinite then .number (realLiteral x) else .null
  | .string s => .string (some s)
  | .array items => .array (trees items)
  | .object members => .object (memberTrees members)

def trees : List Value → List Tree
  | [] => []
  | item :: rest => item.tree :: trees rest

def memberTrees : List (String × Value) → List (Option String × Tree)
  | [] => []
  | (name, value) :: rest => (some name, value.tree) :: memberTrees rest

end

theorem trees_eq_map (items : List Value) : trees items = items.map tree := by
  induction items with
  | nil => rfl
  | cons item rest ih => rw [trees, ih, List.map_cons]

end Value

/-! ## White space and beginnings -/

theorem skipSpace_append {blank text : List Char} (hblank : Blank blank)
    (htext : ∀ c ∈ text.head?, isSpace c = false) : skipSpace (blank ++ text) = text := by
  rw [skipSpace, List.dropWhile_append_of_pos hblank]
  cases text with
  | nil => rfl
  | cons c rest => rw [List.dropWhile_cons_of_neg (by simp [htext c rfl])]

/-- White space ends a number, and so does what may follow it. -/
theorem Ended.blank_append {blank text : List Char} (hblank : Blank blank) (htext : Ended text) :
    Ended (blank ++ text) := by
  cases blank with
  | nil => exact htext
  | cons c rest =>
    rintro _ ⟨⟩
    have hspace := hblank c List.mem_cons_self
    simp only [isSpace, Bool.or_eq_true, decide_eq_true_eq] at hspace
    rcases hspace with ((rfl | rfl) | rfl) | rfl <;> decide

/-- A character that a number begins with. -/
def BeginsNumber (c : Char) : Prop := c = '-' ∨ c.isDigit

/-- A character that may end what values stand in. -/
def Closes (c : Char) : Prop := isSpace c ∨ c = ']' ∨ c = '}'

theorem BeginsNumber.not_mem {c : Char} (h : BeginsNumber c) :
    c ∉ ['n', 't', 'f', '"', '[', '{', ']', '}', ' ', '\n', '\t', '\r'] := by
  intro hmem
  simp only [List.mem_cons, List.not_mem_nil, or_false] at hmem
  rcases h with rfl | h
  · simp at hmem
  · rcases hmem with rfl | rfl | rfl | rfl | rfl | rfl | rfl | rfl | rfl | rfl | rfl | rfl <;>
      simp at h

theorem BeginsNumber.not_closes {c : Char} (h : BeginsNumber c) : ¬Closes c := by
  have := h.not_mem
  rintro (hspace | rfl | rfl)
  · simp only [isSpace, Bool.or_eq_true, decide_eq_true_eq] at hspace
    rcases hspace with ((rfl | rfl) | rfl) | rfl <;> simp at this
  · simp at this
  · simp at this

theorem exists_cons_chars {n : Literal} (h : n.WellFormed) :
    ∃ c rest, n.chars = c :: rest ∧ BeginsNumber c := by
  obtain ⟨c, digits, hwhole⟩ := List.exists_cons_of_ne_nil h.whole.digits.1
  cases hnegative : n.negative with
  | true => exact ⟨'-', _, by rw [Literal.chars, hnegative]; rfl, .inl rfl⟩
  | false =>
    refine ⟨c, _, by rw [Literal.chars, hnegative, hwhole]; rfl, .inr ?_⟩
    exact h.whole.digits.2 c (hwhole ▸ List.mem_cons_self)

/-- No value begins with white space or a closing bracket. -/
theorem exists_cons_spaced (spacing : Spacing) (level : Nat) (v : Value) :
    ∃ c rest, v.spaced spacing level = c :: rest ∧ ¬Closes c := by
  have hnumber : ∀ n : Literal, n.WellFormed → ∃ c rest, n.chars = c :: rest ∧ ¬Closes c := by
    intro n hn
    obtain ⟨c, rest, hchars, hc⟩ := exists_cons_chars hn
    exact ⟨c, rest, hchars, hc.not_closes⟩
  have hplain : ∀ c ∈ ['n', 't', 'f', '"', '[', '{'], ¬Closes c := by
    simp [Closes, isSpace]
  unfold Value.spaced
  split
  · exact ⟨'n', _, rfl, hplain _ (by simp)⟩
  · exact ⟨'t', _, rfl, hplain _ (by simp)⟩
  · exact ⟨'f', _, rfl, hplain _ (by simp)⟩
  · exact chars_integerLiteral _ ▸ hnumber _ (wellFormed_integerLiteral _)
  · next x =>
    by_cases hfinite : x.isFinite
    · obtain ⟨hn, hchars⟩ := realLiteral_spec hfinite
      exact hchars ▸ hnumber _ hn
    · rw [writeReal, if_neg hfinite]
      exact ⟨'n', _, rfl, hplain _ (by simp)⟩
  · exact ⟨'"', _, rfl, hplain _ (by simp)⟩
  · exact ⟨'[', _, rfl, hplain _ (by simp)⟩
  · exact ⟨'[', _, rfl, hplain _ (by simp)⟩
  · exact ⟨'{', _, rfl, hplain _ (by simp)⟩
  · exact ⟨'{', _, rfl, hplain _ (by simp)⟩

namespace Tree

theorem readValue_number {n : Literal} (h : n.WellFormed) {fuel : Nat} {blank rest : List Char}
    (hblank : Blank blank) (hrest : Ended rest) :
    readValue (fuel + 1) (blank ++ (n.chars ++ rest)) = (.number n, some rest) := by
  obtain ⟨c, more, hchars, hc⟩ := exists_cons_chars h
  have hskip : skipSpace (blank ++ (n.chars ++ rest)) = n.chars ++ rest := by
    refine skipSpace_append hblank ?_
    rw [hchars]
    rintro _ ⟨⟩
    exact Bool.eq_false_iff.2 fun hspace => hc.not_closes (.inl hspace)
  have hother : ∀ tail, ∀ d ∈ ['n', 't', 'f', '"', '[', '{'], n.chars ++ rest ≠ d :: tail := by
    rintro tail d hd heq
    rw [hchars] at heq
    obtain rfl := (List.cons.inj heq).1
    exact hc.not_mem (List.mem_append_left [']', '}', ' ', '\n', '\t', '\r'] hd)
  rw [readValue, hskip]
  split
  case h_7 => rw [readLiteral_chars h hrest]
  all_goals next heq => exact absurd heq (hother _ _ (by simp))

/-! ## What is read with some fuel -/

variable (spacing : Spacing)

/-- Values are read back with some fuel, if their texts are short enough for it. -/
def ReadsValues (fuel : Nat) : Prop :=
  ∀ (v : Value) (level : Nat) (blank rest : List Char), Blank blank → Ended rest →
    2 * (v.spaced spacing level).length ≤ fuel →
      readValue fuel (blank ++ (v.spaced spacing level ++ rest)) = (v.tree, some rest)

/-- Items of arrays are read back with some fuel, from the first one on. -/
def ReadsItems (fuel : Nat) : Prop :=
  ∀ (item : Value) (items : List Value) (level : Nat) (blank rest : List Char), Blank blank →
    2 * ((item.spaced spacing (level + 1)).length +
      (Value.spacedItems spacing level items).length) ≤ fuel →
      readItems fuel (blank ++ (item.spaced spacing (level + 1) ++
        (Value.spacedItems spacing level items ++ rest))) =
          (item.tree :: Value.trees items, some rest)

/-- Members of objects are read back with some fuel, from the first one on. -/
def ReadsMembers (fuel : Nat) : Prop :=
  ∀ (name : String) (value : Value) (members : List (String × Value)) (level : Nat)
    (blank rest : List Char), Blank blank →
    2 * ((value.spaced spacing (level + 1)).length +
      (Value.spacedMembers spacing level members).length) ≤ fuel →
      readMembers fuel (blank ++ (writeString name ++ ':' :: (spacing.afterColon ++
        (value.spaced spacing (level + 1) ++ (Value.spacedMembers spacing level members ++ rest)))))
          = ((some name, value.tree) :: Value.memberTrees members, some rest)

variable {fuel : Nat}

theorem skipSpace_spaced (level : Nat) (v : Value) (rest : List Char) {blank : List Char}
    (hblank : Blank blank) :
    skipSpace (blank ++ (v.spaced spacing level ++ rest)) = v.spaced spacing level ++ rest := by
  obtain ⟨c, more, hspaced, hc⟩ := exists_cons_spaced spacing level v
  refine skipSpace_append hblank ?_
  rw [hspaced]
  rintro _ ⟨⟩
  exact Bool.eq_false_iff.2 fun hspace => hc (.inl hspace)

theorem ended_spacedItems (level : Nat) (items : List Value) (rest : List Char) :
    Ended (Value.spacedItems spacing level items ++ rest) := by
  cases items with
  | nil =>
    rw [Value.spacedItems, List.append_assoc]
    exact Ended.blank_append (spacing.blank_gap level) (by simp [Ended])
  | cons item items => simp [Value.spacedItems, Ended]

theorem ended_spacedMembers (level : Nat) (members : List (String × Value)) (rest : List Char) :
    Ended (Value.spacedMembers spacing level members ++ rest) := by
  cases members with
  | nil =>
    rw [Value.spacedMembers, List.append_assoc]
    exact Ended.blank_append (spacing.blank_gap level) (by simp [Ended])
  | cons member members =>
    obtain ⟨name, value⟩ := member
    simp [Value.spacedMembers, Ended]

theorem length_spacedItems_pos (level : Nat) (items : List Value) :
    0 < (Value.spacedItems spacing level items).length := by
  cases items <;> simp [Value.spacedItems]

theorem length_spacedMembers_pos (level : Nat) (members : List (String × Value)) :
    0 < (Value.spacedMembers spacing level members).length := by
  rcases members with _ | ⟨⟨name, value⟩, rest⟩ <;> simp [Value.spacedMembers]

variable {spacing}

/-- Items are read with one more token than values and the items behind them. -/
theorem readsItems_succ (hvalues : ReadsValues spacing fuel) (hitems : ReadsItems spacing fuel) :
    ReadsItems spacing (fuel + 1) := by
  intro item items level blank rest hblank hfuel
  have hitem := hvalues item (level + 1) blank (Value.spacedItems spacing level items ++ rest)
    hblank (ended_spacedItems spacing level items rest) (by
      have := length_spacedItems_pos spacing level items
      omega)
  rw [readItems, hitem]
  cases items with
  | nil =>
    have hskip : skipSpace (Value.spacedItems spacing level [] ++ rest) = ']' :: rest := by
      rw [Value.spacedItems, List.append_assoc]
      exact skipSpace_append (spacing.blank_gap level) (by simp [isSpace])
    simp only [Option.map_some, hskip]
    rfl
  | cons next items =>
    have hnext := hitems next items level (spacing.gap (level + 1)) rest
      (spacing.blank_gap (level + 1)) (by
        simp only [Value.spacedItems, List.length_cons, List.length_append] at hfuel
        omega)
    have hskip : skipSpace (Value.spacedItems spacing level (next :: items) ++ rest) =
        ',' :: (spacing.gap (level + 1) ++ (next.spaced spacing (level + 1) ++
          (Value.spacedItems spacing level items ++ rest))) := by
      simp [Value.spacedItems, skipSpace, isSpace]
    simp only [Option.map_some, hskip, hnext, Value.trees]

/-- Members are read with one more token than values and the members behind them. -/
theorem readsMembers_succ (hvalues : ReadsValues spacing fuel)
    (hmembers : ReadsMembers spacing fuel) : ReadsMembers spacing (fuel + 1) := by
  intro name value members level blank rest hblank hfuel
  have hvalue := hvalues value (level + 1) spacing.afterColon
    (Value.spacedMembers spacing level members ++ rest) spacing.blank_afterColon
    (ended_spacedMembers spacing level members rest) (by
      have := length_spacedMembers_pos spacing level members
      omega)
  generalize htail : spacing.afterColon ++ (value.spaced spacing (level + 1) ++
    (Value.spacedMembers spacing level members ++ rest)) = tail at hvalue
  have hquote : skipSpace (blank ++ (writeString name ++ ':' :: tail)) =
      '"' :: (name.toList.flatMap writeChar ++ '"' :: ':' :: tail) := by
    rw [skipSpace_append hblank (by simp [writeString, isSpace])]
    simp [writeString]
  have hcolon : skipSpace (':' :: tail) = ':' :: tail := by
    simp [skipSpace, isSpace]
  rw [readMembers, hquote]
  simp only [readString_writeString, hcolon, hvalue]
  cases members with
  | nil =>
    have hskip : skipSpace (Value.spacedMembers spacing level [] ++ rest) = '}' :: rest := by
      rw [Value.spacedMembers, List.append_assoc]
      exact skipSpace_append (spacing.blank_gap level) (by simp [isSpace])
    simp only [Option.map_some, hskip]
    rfl
  | cons next members =>
    obtain ⟨next, value'⟩ := next
    have hnext := hmembers next value' members level (spacing.gap (level + 1)) rest
      (spacing.blank_gap (level + 1)) (by
        simp only [Value.spacedMembers, List.length_cons, List.length_append] at hfuel
        omega)
    have hskip : skipSpace (Value.spacedMembers spacing level ((next, value') :: members) ++ rest) =
        ',' :: (spacing.gap (level + 1) ++ (writeString next ++ ':' :: (spacing.afterColon ++
          (value'.spaced spacing (level + 1) ++
            (Value.spacedMembers spacing level members ++ rest))))) := by
      simp [Value.spacedMembers, skipSpace, isSpace]
    simp only [Option.map_some, hskip, hnext, Value.memberTrees]

section

variable {level : Nat} {blank rest : List Char}

theorem readValue_real (x : Double) (hblank : Blank blank) (hrest : Ended rest) :
    readValue (fuel + 1) (blank ++ ((Value.real x).spaced spacing level ++ rest)) =
      ((Value.real x).tree, some rest) := by
  by_cases hfinite : x.isFinite
  · obtain ⟨hn, hchars⟩ := realLiteral_spec hfinite
    have hread := @readValue_number _ hn fuel _ _ hblank hrest
    rw [hchars] at hread
    rw [Value.tree, if_pos hfinite]
    exact hread
  · have hnull : (Value.real x).spaced spacing level = ['n', 'u', 'l', 'l'] := by
      rw [Value.spaced, writeReal, if_neg hfinite]
    rw [readValue, skipSpace_spaced spacing level _ rest hblank, hnull, Value.tree, if_neg hfinite]
    rfl

theorem readValue_string (s : String) (hblank : Blank blank) :
    readValue (fuel + 1) (blank ++ ((Value.string s).spaced spacing level ++ rest)) =
      ((Value.string s).tree, some rest) := by
  have hstring : (Value.string s).spaced spacing level ++ rest =
      '"' :: (s.toList.flatMap writeChar ++ '"' :: rest) := by
    simp [Value.spaced, writeString]
  rw [readValue, skipSpace_spaced spacing level _ rest hblank, hstring]
  simp only [readString_writeString]
  rfl

theorem readValue_array (hitems : ReadsItems spacing fuel) {item : Value} {items : List Value}
    (hblank : Blank blank)
    (hfuel : 2 * ((Value.array (item :: items)).spaced spacing level).length ≤ fuel + 1) :
    readValue (fuel + 1) (blank ++ ((Value.array (item :: items)).spaced spacing level ++ rest)) =
      ((Value.array (item :: items)).tree, some rest) := by
  have hread := hitems item items level [] rest (by simp [Blank]) (by
    simp only [Value.spaced, List.length_cons, List.length_append] at hfuel
    omega)
  have hinner := skipSpace_spaced spacing (level + 1) item
    (Value.spacedItems spacing level items ++ rest) (spacing.blank_gap (level + 1))
  obtain ⟨c, more, hspaced, hc⟩ := exists_cons_spaced spacing (level + 1) item
  rw [List.nil_append] at hread
  rw [readValue, skipSpace_spaced spacing level _ rest hblank]
  simp only [Value.spaced, List.cons_append, List.append_assoc, hinner]
  split
  · next heq =>
    -- an item does not begin like the end of the array
    rw [hspaced] at heq
    exact absurd (.inr (.inl (List.cons.inj heq).1)) hc
  · rw [hread]
    rfl

theorem readValue_object (hmembers : ReadsMembers spacing fuel) {name : String} {value : Value}
    {members : List (String × Value)} (hblank : Blank blank)
    (hfuel : 2 * ((Value.object ((name, value) :: members)).spaced spacing level).length ≤
      fuel + 1) :
    readValue (fuel + 1)
        (blank ++ ((Value.object ((name, value) :: members)).spaced spacing level ++ rest)) =
      ((Value.object ((name, value) :: members)).tree, some rest) := by
  have hread := hmembers name value members level [] rest (by simp [Blank]) (by
    simp only [Value.spaced, List.length_cons, List.length_append] at hfuel
    omega)
  have hinner : ∀ tail, skipSpace (spacing.gap (level + 1) ++ (writeString name ++ tail)) =
      writeString name ++ tail := fun tail =>
    skipSpace_append (spacing.blank_gap (level + 1)) (by simp [writeString, isSpace])
  rw [List.nil_append] at hread
  rw [readValue, skipSpace_spaced spacing level _ rest hblank]
  simp only [Value.spaced, List.cons_append, List.append_assoc, hinner]
  split
  · next heq => cases heq
  · rw [hread]
    rfl

end

/-- Values are read with one more token than what stands in them. -/
theorem readsValues_succ (hitems : ReadsItems spacing fuel)
    (hmembers : ReadsMembers spacing fuel) : ReadsValues spacing (fuel + 1) := by
  intro v level blank rest hblank hrest hfuel
  have hskip := skipSpace_spaced spacing level v rest hblank
  match v with
  | .null | .bool true | .bool false | .array [] | .object [] =>
    rw [readValue, hskip]
    rfl
  | .integer n =>
    have hread := @readValue_number _ (wellFormed_integerLiteral n) fuel _ _ hblank hrest
    rwa [chars_integerLiteral] at hread
  | .real x => exact readValue_real x hblank hrest
  | .string s => exact readValue_string s hblank
  | .array (item :: items) => exact readValue_array hitems hblank hfuel
  | .object ((name, value) :: members) => exact readValue_object hmembers hblank hfuel

/-- With enough fuel everything is read back. -/
theorem reads (spacing : Spacing) (fuel : Nat) :
    ReadsValues spacing fuel ∧ ReadsItems spacing fuel ∧ ReadsMembers spacing fuel := by
  induction fuel with
  | zero =>
    -- no text is empty, so none is short enough
    refine ⟨fun v level _ _ _ _ hfuel => ?_, fun _ items level _ _ _ hfuel => ?_,
      fun _ _ members level _ _ _ hfuel => ?_⟩
    · obtain ⟨c, more, hspaced, -⟩ := exists_cons_spaced spacing level v
      simp [hspaced] at hfuel
    · have := length_spacedItems_pos spacing level items
      omega
    · have := length_spacedMembers_pos spacing level members
      omega
  | succ fuel ih =>
    obtain ⟨hvalues, hitems, hmembers⟩ := ih
    exact ⟨readsValues_succ hitems hmembers, readsItems_succ hvalues hitems,
      readsMembers_succ hvalues hmembers⟩

theorem read_spaced (spacing : Spacing) (v : Value) :
    read (v.spaced spacing 0) = (v.tree, some []) := by
  have h := (reads spacing _).1 v 0 [] [] (by simp [Blank]) (by simp [Ended])
    (Nat.le_succ (2 * (v.spaced spacing 0).length))
  rwa [List.append_nil, List.nil_append] at h

/-- The compact text of a value is read as its tree. -/
theorem read_compact (v : Value) : read v.compact.toList = (v.tree, some []) := by
  rw [Value.compact, String.toList_ofList, ← Value.spaced_compact 0]
  exact read_spaced .compact v

/-- The pretty text of a value is read as its tree. -/
theorem read_pretty (v : Value) : read v.pretty.toList = (v.tree, some []) := by
  rw [Value.pretty, String.toList_ofList, ← Value.spaced_pretty 0]
  exact read_spaced .pretty v

end Tree

end Tableflow.Json
