import Tableflow.Json.Value
import Tableflow.Text.Quoted

/-!
# JSON values for inspection

A written form of JSON values in which every value is marked with its sort: `Number(3)`,
`String("a")`, `Array [Null]`. Strings are quoted as texts are and not as JSON strings are, so
that characters that do not show are visible.
-/

namespace Tableflow.Json

namespace Value

mutual

/-- A value with its sort. -/
def inspect : Value → String
  | .null => "Null"
  | .bool true => "Bool(true)"
  | .bool false => "Bool(false)"
  | .integer n => "Number(" ++ String.ofList (writeInteger n) ++ ")"
  | .real x => "Number(" ++ String.ofList (writeReal x) ++ ")"
  | .string s => "String(" ++ Text.quote s ++ ")"
  | .array items => "Array [" ++ ", ".intercalate (inspectItems items) ++ "]"
  | .object members => "Object \x7b" ++ ", ".intercalate (inspectMembers members) ++ "\x7d"

/-- The items of an array with their sorts. -/
def inspectItems : List Value → List String
  | [] => []
  | item :: rest => inspect item :: inspectItems rest

/-- The members of an object with their sorts. -/
def inspectMembers : List (String × Value) → List String
  | [] => []
  | (name, value) :: rest => (Text.quote name ++ ": " ++ inspect value) :: inspectMembers rest

end

end Value

end Tableflow.Json
