import Tableflow.Decimal.Layout
import Tableflow.Text.Pad

/-!
# Texts of one line

Texts without a line feed come back from a text in which each of them ends a line
(`Text.splitOn_lines`). Numbers are written without one, and padding adds none. A padded text stands
at one end of a field (`Text.AtLeft`, `Text.AtRight`) that is as wide as asked for, or as wide as the
text if that is wider: nothing is ever cut off.
-/

namespace Tableflow.Text

/-- The text has no line feed. -/
def OneLine (text : String) : Prop := '\n' ∉ text.toList

instance : DecidablePred OneLine := fun text => inferInstanceAs (Decidable ('\n' ∉ text.toList))

section

variable {width : Nat} {text field : String}

@[simp] theorem oneLine_append {other : String} :
    OneLine (text ++ other) ↔ OneLine text ∧ OneLine other := by
  simp [OneLine]

@[simp] theorem oneLine_ofList {chars : List Char} :
    OneLine (String.ofList chars) ↔ '\n' ∉ chars := by
  rw [OneLine, String.toList_ofList]

theorem newline_notMem_toDigits (n : Nat) : '\n' ∉ Nat.toDigits 10 n := fun h =>
  absurd (Nat.isDigit_of_mem_toDigits (by decide) (by decide) h) (by decide)

@[simp] theorem oneLine_toString (n : Nat) : OneLine (toString n) :=
  oneLine_ofList.2 (newline_notMem_toDigits n)

/-! ## Fields -/

/-- A text at the left of a field of some width, with blanks behind it. -/
def AtLeft (width : Nat) (text field : String) : Prop :=
  ∃ blanks, field = text ++ String.ofList (List.replicate blanks ' ') ∧
    field.length = max width text.length

/-- A text at the right of a field of some width, with blanks before it. -/
def AtRight (width : Nat) (text field : String) : Prop :=
  ∃ blanks, field = String.ofList (List.replicate blanks ' ') ++ text ∧
    field.length = max width text.length

theorem length_filler : (filler width text).length = width - text.length := by
  rw [filler, String.length_ofList, List.length_replicate]

theorem atLeft_alignLeft (width : Nat) (text : String) : AtLeft width text (alignLeft width text) := by
  refine ⟨width - text.length, rfl, ?_⟩
  rw [alignLeft, String.length_append, length_filler]
  omega

theorem atRight_alignRight (width : Nat) (text : String) :
    AtRight width text (alignRight width text) := by
  refine ⟨width - text.length, rfl, ?_⟩
  rw [alignRight, String.length_append, length_filler]
  omega

@[simp] theorem oneLine_filler : OneLine (filler width text) := by
  rw [filler, oneLine_ofList]
  intro h
  exact absurd (List.eq_of_mem_replicate h) (by decide)

@[simp] theorem oneLine_alignLeft : OneLine (alignLeft width text) ↔ OneLine text := by
  simp [alignLeft]

@[simp] theorem oneLine_alignRight : OneLine (alignRight width text) ↔ OneLine text := by
  simp [alignRight]

end

/-! ## Lines -/

/-- Texts of one line come back from the text in which each of them ends a line. -/
theorem splitOn_lines {lines : List String} (h : ∀ line ∈ lines, OneLine line) :
    (String.join (lines.map (· ++ "\n"))).toList.splitOn '\n' =
      lines.map String.toList ++ [[]] := by
  induction lines with
  | nil => rfl
  | cons line rest ih =>
    obtain ⟨hline, hrest⟩ := List.forall_mem_cons.1 h
    have htext : (String.join ((line :: rest).map (· ++ "\n"))).toList =
        line.toList ++ '\n' :: (String.join (rest.map (· ++ "\n"))).toList := by
      rw [List.map_cons, String.join_cons, String.toList_append, String.toList_append,
        List.append_assoc]
      rfl
    rw [htext, List.splitOn_append_cons_self, List.splitOn_eq_singleton hline, ih hrest]
    rfl

end Tableflow.Text

namespace Tableflow.Decimal

/-! ## Numbers -/

theorem newline_notMem_withPoint {digits : List Char} (h : '\n' ∉ digits) (places : Nat) :
    '\n' ∉ withPoint digits places := by
  have hpadded : '\n' ∉ List.replicate (places + 1 - digits.length) '0' ++ digits := by
    rw [List.mem_append, not_or]
    exact ⟨fun hmem => absurd (List.eq_of_mem_replicate hmem) (by decide), h⟩
  unfold withPoint
  split
  · exact h
  · rw [List.mem_append, List.mem_cons, not_or, not_or]
    exact ⟨fun hmem => hpadded (List.mem_of_mem_take hmem), by decide,
      fun hmem => hpadded (List.mem_of_mem_drop hmem)⟩

theorem oneLine_writeNonFinite (x : Double) : Text.OneLine (writeNonFinite x) := by
  unfold writeNonFinite
  split
  · decide
  · split <;> decide

@[simp] theorem oneLine_writeFixed (places : Nat) (x : Double) :
    Text.OneLine (writeFixed places x) := by
  unfold writeFixed
  split
  · rw [Text.oneLine_ofList]
    have hmagnitude (n : Nat) := newline_notMem_withPoint (Text.newline_notMem_toDigits n) places
    split
    · rw [List.mem_cons, not_or]
      exact ⟨by decide, hmagnitude _⟩
    · exact hmagnitude _
  · exact oneLine_writeNonFinite x

end Tableflow.Decimal
