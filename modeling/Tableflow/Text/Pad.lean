/-!
# Padding to a width

Widths count characters as code points; a text that is already as wide is left alone.
-/

namespace Tableflow.Text

/-- The blanks that a text lacks to be `width` wide. -/
def filler (width : Nat) (text : String) : String :=
  String.ofList (List.replicate (width - text.length) ' ')

/-- The text at the left of a field `width` wide. -/
def alignLeft (width : Nat) (text : String) : String := text ++ filler width text

/-- The text at the right of a field `width` wide. -/
def alignRight (width : Nat) (text : String) : String := filler width text ++ text

end Tableflow.Text
