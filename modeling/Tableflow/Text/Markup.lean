/-!
# Text in markup

The five characters that markup reads as its own are written as entities, and `unescape` reads the
entities back: `unescape_escape` says that nothing is lost.
-/

namespace Tableflow.Text

/-- The entity of a character, or the character itself. -/
def escapeChar : Char → List Char
  | '&' => ['&', 'a', 'm', 'p', ';']
  | '<' => ['&', 'l', 't', ';']
  | '>' => ['&', 'g', 't', ';']
  | '"' => ['&', 'q', 'u', 'o', 't', ';']
  | '\'' => ['&', '#', '3', '9', ';']
  | c => [c]

/-- A text with entities in place of the characters of markup. -/
def escape (text : List Char) : List Char := text.flatMap escapeChar

/-- A text with its entities read back; other ampersands are left alone. -/
def unescape : List Char → List Char
  | '&' :: 'a' :: 'm' :: 'p' :: ';' :: rest => '&' :: unescape rest
  | '&' :: 'l' :: 't' :: ';' :: rest => '<' :: unescape rest
  | '&' :: 'g' :: 't' :: ';' :: rest => '>' :: unescape rest
  | '&' :: 'q' :: 'u' :: 'o' :: 't' :: ';' :: rest => '"' :: unescape rest
  | '&' :: '#' :: '3' :: '9' :: ';' :: rest => '\'' :: unescape rest
  | c :: rest => c :: unescape rest
  | [] => []

theorem unescape_escapeChar_append (c : Char) (rest : List Char) :
    unescape (escapeChar c ++ rest) = c :: unescape rest := by
  unfold escapeChar
  split
  all_goals simp_all [unescape]

theorem unescape_escape (text : List Char) : unescape (escape text) = text := by
  induction text with
  | nil => rfl
  | cons c rest ih =>
    rw [show escape (c :: rest) = escapeChar c ++ escape rest from rfl,
      unescape_escapeChar_append, ih]

/-- A text as it stands in markup. -/
def escapeText (text : String) : String := String.ofList (escape text.toList)

end Tableflow.Text
