import Mathlib.Data.List.TakeWhile
import Tableflow.Text.Blank
import Tableflow.Text.Line

/-!
# Laws of lines, fields and blanks

Cutting a line into fields is the splitting of lists (`fields_eq_splitOn`), so that fields without
the delimiter come back from a line in which they are joined (`fields_intercalate`); a line with its
line feed is cut off a text as it stands (`lines_append_newline`). Trimming leaves nothing of a text
just if all of it is white space (`trim_eq_nil_iff`).
-/

namespace Tableflow.Text

/-! ## Fields -/

variable {delimiter : Char}

theorem fields_eq_splitOn (line : List Char) : fields delimiter line = line.splitOn delimiter := by
  induction line with
  | nil => rfl
  | cons c rest ih =>
    rw [List.splitOn_cons_eq_if_modifyHead, ← ih, fields]
    by_cases hc : c = delimiter
    · rw [if_pos hc, if_pos (beq_iff_eq.2 hc)]
    · rw [if_neg hc, if_neg (mt beq_iff_eq.1 hc)]
      cases hfields : fields delimiter rest with
      | nil => exact absurd (ih.symm.trans hfields) (List.splitOn_ne_nil delimiter rest)
      | cons field more => rfl

theorem fields_ne_nil (line : List Char) : fields delimiter line ≠ [] := by
  rw [fields_eq_splitOn]
  exact List.splitOn_ne_nil delimiter line

theorem fields_eq_singleton {line : List Char} (h : delimiter ∉ line) :
    fields delimiter line = [line] := by
  rw [fields_eq_splitOn, List.splitOn_eq_singleton h]

theorem fields_append_cons (a b : List Char) :
    fields delimiter (a ++ delimiter :: b) = fields delimiter a ++ fields delimiter b := by
  simp only [fields_eq_splitOn, List.splitOn_append_cons_self]

/-- Fields without the delimiter come back from the line that they are joined in. -/
theorem fields_intercalate {row : List (List Char)} (h : ∀ field ∈ row, delimiter ∉ field)
    (hne : row ≠ []) : fields delimiter ([delimiter].intercalate row) = row := by
  rw [fields_eq_splitOn, List.splitOn_intercalate delimiter h hne]

/-! ## Lines -/

/-- A line with its line feed is cut off a text. -/
theorem lines_append_newline {line : List Char} (h : ∀ c ∈ line, c ≠ '\n' ∧ c ≠ '\r')
    (rest : List Char) : lines (line ++ '\n' :: rest) = line :: lines rest := by
  induction line with
  | nil => rfl
  | cons c more ih =>
    obtain ⟨⟨hfeed, hreturn⟩, hmore⟩ := List.forall_mem_cons.1 h
    rw [List.cons_append, lines]
    · rw [ih hmore]
    · exact hfeed
    · exact fun _ hc => absurd hc hreturn

/-! ## Blanks -/

theorem trim_eq_nil_iff {text : List Char} : trim text = [] ↔ ∀ c ∈ text, isBlank c := by
  rw [trim, trimEnd, List.reverse_eq_nil_iff, List.dropWhile_eq_nil_iff]
  simp only [List.mem_reverse]
  constructor
  · intro h
    -- what is not dropped from the front is blank from its end on, so nothing is left to drop
    rw [← List.takeWhile_append_dropWhile (p := isBlank) (l := text), List.forall_mem_append]
    exact ⟨fun c hc => List.mem_takeWhile_imp hc, h⟩
  · exact fun h c hc => h c ((List.dropWhile_suffix _).subset hc)

end Tableflow.Text
