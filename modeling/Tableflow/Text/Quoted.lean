import Tableflow.Text.Hex
import Tableflow.Text.Printable

/-!
# Quoted text

A text between double quotes in which quotes and backslashes are escaped, the four common control
characters have a letter each, and every other character that does not print by itself is written
by its number.
-/

namespace Tableflow.Text

/-- A character inside quotes. -/
def quoteChar (c : Char) : List Char :=
  if c = '"' || c = '\\' then ['\\', c]
  else if c = '\n' then ['\\', 'n']
  else if c = '\r' then ['\\', 'r']
  else if c = '\t' then ['\\', 't']
  else if c.toNat = 0 then ['\\', '0']
  else if isPrintable c then [c]
  else '\\' :: 'u' :: '{' :: hexDigits c.toNat ++ ['}']

/-- A text in quotes. -/
def quote (text : String) : String :=
  String.ofList ('"' :: text.toList.flatMap quoteChar ++ ['"'])

/-- Texts in quotes, separated by commas and enclosed in brackets. -/
def quoteList (texts : List String) : String :=
  "[" ++ ", ".intercalate (texts.map quote) ++ "]"

end Tableflow.Text
