import Tableflow.Facets.Comparison
import Tableflow.Text.Markup

/-!
# Characters of markup

Markup reads five characters as its own. Once a text is escaped, four of them are gone
(`marks_escape`) and the fifth one, the ampersand, stands only where it starts an entity
(`entitiesOnly_escape`). The texts of numbers have none of the five (`unmarked_toString`,
`unmarked_writeStatistic`, `unmarked_share`), so they are the same escaped or not
(`Unmarked.escapeText_eq`).
-/

namespace Tableflow

namespace Text

theorem escape_cons (c : Char) (rest : List Char) :
    escape (c :: rest) = escapeChar c ++ escape rest := rfl

@[simp]
theorem escape_append (a b : List Char) : escape (a ++ b) = escape a ++ escape b :=
  List.flatMap_append

/-! ## Marks -/

/-- The characters of tags and of what is quoted in them. -/
def isMark (c : Char) : Bool := c ∈ ['<', '>', '"', '\'']

/-- The sequence of the marks in a text. -/
def marks (text : List Char) : List Char := text.filter isMark

theorem marks_append (a b : List Char) : marks (a ++ b) = marks a ++ marks b :=
  List.filter_append ..

theorem marks_escapeChar (c : Char) : marks (escapeChar c) = [] := by
  unfold escapeChar
  split
  case h_6 => simp_all [marks, isMark]
  all_goals rfl

theorem marks_escape (text : List Char) : marks (escape text) = [] := by
  induction text with
  | nil => rfl
  | cons c rest ih =>
    rw [escape_cons, marks_append, marks_escapeChar, ih, List.append_nil]

theorem not_mem_escape {c : Char} (h : isMark c) (text : List Char) : c ∉ escape text := by
  intro hmem
  have : c ∈ marks (escape text) := List.mem_filter.2 ⟨hmem, h⟩
  rw [marks_escape] at this
  cases this

/-! ## Entities -/

/-- The five entities. -/
def entities : List (List Char) :=
  ["&amp;".toList, "&lt;".toList, "&gt;".toList, "&quot;".toList, "&#39;".toList]

/-- Every ampersand of a text starts an entity. -/
def EntitiesOnly (text : List Char) : Prop :=
  ∀ before after, text = before ++ '&' :: after → ∃ entity ∈ entities, entity <+: '&' :: after

theorem EntitiesOnly.of_not_mem {text : List Char} (h : '&' ∉ text) : EntitiesOnly text := by
  rintro before after rfl
  simp at h

theorem EntitiesOnly.append {a b : List Char} (ha : EntitiesOnly a) (hb : EntitiesOnly b) :
    EntitiesOnly (a ++ b) := by
  intro before after h
  rcases List.append_eq_append_iff.1 h with ⟨more, rfl, hb'⟩ | ⟨more, rfl, hafter⟩
  · exact hb more after hb'
  · cases more with
    | nil => exact hb [] after (by simpa using hafter.symm)
    | cons c rest =>
      -- the entity ends before the second text begins
      obtain ⟨rfl, rfl⟩ := List.cons.inj hafter
      obtain ⟨entity, hmem, hentity⟩ := ha before rest rfl
      exact ⟨entity, hmem, hentity.trans (List.prefix_append ('&' :: rest) b)⟩

theorem entitiesOnly_escapeChar (c : Char) : EntitiesOnly (escapeChar c) := by
  unfold escapeChar
  split
  case h_6 h _ _ _ _ => exact .of_not_mem (by simpa using Ne.symm h)
  all_goals
    intro before after h
    cases before with
    | nil => simp_all [entities]
    | cons c rest =>
      have : '&' ∈ rest ++ '&' :: after := by simp
      rw [List.cons_append] at h
      rw [← (List.cons.inj h).2] at this
      simp at this

theorem entitiesOnly_escape (text : List Char) : EntitiesOnly (escape text) := by
  induction text with
  | nil => exact .of_not_mem (by simp [escape])
  | cons c rest ih => exact (entitiesOnly_escapeChar c).append ih

/-! ## Texts without characters of markup -/

/-- The characters that markup reads as its own. -/
def special : List Char := ['&', '<', '>', '"', '\'']

/-- A text that has no characters of markup. -/
def Unmarked (text : String) : Prop := ∀ c ∈ text.toList, c ∉ special

-- the characters are looked at one by one, and not every character there is
instance : DecidablePred Unmarked := fun text => List.decidableBAll (· ∉ special) text.toList

/-- A text that is spelled out. -/
theorem unmarked_ofList {chars : List Char} (h : chars.all (· ∉ special)) :
    Unmarked (String.ofList chars) := by
  rw [Unmarked, String.toList_ofList]
  simpa using h

theorem Unmarked.append {a b : String} (ha : Unmarked a) (hb : Unmarked b) : Unmarked (a ++ b) :=
  fun c hc => (List.mem_append.1 (String.toList_append ▸ hc)).elim (ha c) (hb c)

theorem escapeText_append (a b : String) : escapeText (a ++ b) = escapeText a ++ escapeText b := by
  rw [escapeText, String.toList_append, escape_append, String.ofList_append, escapeText, escapeText]

theorem escapeChar_eq_self {c : Char} (h : c ∉ special) : escapeChar c = [c] := by
  unfold escapeChar
  split
  all_goals simp_all [special]

theorem Unmarked.escapeText_eq {text : String} (h : Unmarked text) : escapeText text = text := by
  have hself : text.toList.map escapeChar = text.toList.map fun c => [c] :=
    List.map_congr_left fun c hc => escapeChar_eq_self (h c hc)
  rw [escapeText, escape, List.flatMap_def, hself, ← List.flatMap_def, List.flatMap_singleton',
    String.ofList_toList]

end Text

/-! ## Numbers -/

open Text

theorem digit_unmarked {c : Char} (h : c.isDigit) : c ∉ special := by
  rintro hmem
  simp only [special, List.mem_cons, List.not_mem_nil, or_false] at hmem
  rcases hmem with rfl | rfl | rfl | rfl | rfl <;> simp at h

theorem unmarked_toString (n : Nat) : Unmarked (toString n) := by
  intro c hc
  rw [show (toString n).toList = Nat.toDigits 10 n by simp] at hc
  exact digit_unmarked (Nat.isDigit_of_mem_toDigits (by decide) (by decide) hc)

theorem mem_withPoint {digits : List Char} {places : Nat} {c : Char}
    (h : c ∈ Decimal.withPoint digits places) : c ∈ digits ∨ c = '0' ∨ c = '.' := by
  unfold Decimal.withPoint at h
  split at h
  · exact .inl h
  · rcases List.mem_append.1 h with h | h
    · rcases List.mem_append.1 (List.mem_of_mem_take h) with h | h
      · exact .inr (.inl (List.eq_of_mem_replicate h))
      · exact .inl h
    · rcases List.mem_cons.1 h with rfl | h
      · exact .inr (.inr rfl)
      · rcases List.mem_append.1 (List.mem_of_mem_drop h) with h | h
        · exact .inr (.inl (List.eq_of_mem_replicate h))
        · exact .inl h

theorem unmarked_writeFixed (places : Nat) (x : Double) :
    Unmarked (Decimal.writeFixed places x) := by
  have hpoint : ∀ (n : Nat), ∀ c ∈ Decimal.withPoint (Nat.toDigits 10 n) places,
      c ∉ special := by
    intro n c hc
    rcases mem_withPoint hc with hc | rfl | rfl
    · exact digit_unmarked (Nat.isDigit_of_mem_toDigits (by decide) (by decide) hc)
    · decide
    · decide
  have hnonFinite : Unmarked (Decimal.writeNonFinite x) := by
    unfold Decimal.writeNonFinite
    split
    · exact unmarked_ofList (by decide)
    · split <;> exact unmarked_ofList (by decide)
  unfold Decimal.writeFixed
  split
  · intro c hc
    rw [String.toList_ofList] at hc
    split at hc
    · rcases List.mem_cons.1 hc with rfl | hc
      · decide
      · exact hpoint _ c hc
    · exact hpoint _ c hc
  · exact hnonFinite

theorem unmarked_writeStatistic (x : Option Double) : Unmarked (writeStatistic x) := by
  cases x with
  | none => exact unmarked_ofList (by decide)
  | some x => exact unmarked_writeFixed 3 x

theorem unmarked_share (rate : Double) : Unmarked (writePercentage rate ++ "%") :=
  (unmarked_writeFixed 1 _).append (unmarked_ofList (by decide))

end Tableflow
