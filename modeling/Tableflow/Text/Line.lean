/-!
# Lines and fields

A text is cut into lines at line feeds and a line into fields at a delimiter. A carriage return
just before a line feed belongs to the line's end; the last line needs no line feed. Cutting into
fields never fails and yields one field more than there are delimiters.
-/

namespace Tableflow.Text

/-- The lines of a text, without their ends. -/
def lines : List Char → List (List Char)
  | [] => []
  | '\n' :: rest => [] :: lines rest
  | '\r' :: '\n' :: rest => [] :: lines rest
  | c :: rest =>
    match lines rest with
    | [] => [[c]]
    | line :: more => (c :: line) :: more

/-- The fields of a line, between the delimiters. -/
def fields (delimiter : Char) : List Char → List (List Char)
  | [] => [[]]
  | c :: rest =>
    if c = delimiter then [] :: fields delimiter rest
    else
      match fields delimiter rest with
      | [] => [[c]]
      | field :: more => (c :: field) :: more

theorem length_fields (delimiter : Char) (line : List Char) :
    (fields delimiter line).length = line.count delimiter + 1 := by
  induction line with
  | nil => rfl
  | cons c rest ih =>
    simp only [fields]
    split
    · next h => simp [h, ih]
    · next h =>
      have hne : ¬(c == delimiter) = true := by simpa using h
      split
      · next hnil => simp [hnil] at ih
      · next field more hcons => simp_all

end Tableflow.Text
