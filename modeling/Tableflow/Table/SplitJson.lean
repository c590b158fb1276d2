import Tableflow.Json.Position
import Tableflow.Table.Json
import Tableflow.Table.Split

/-!
# Splits and their configurations as JSON

A split is an object of its four parts. A part that breaks the rules of tables is refused with its
place in the text, which is where the split was given up. A configuration is an object of its
three members, of which each has its default.
-/

namespace Tableflow

open Json (Value Tree Reals Decoded Rejection)

/-! ## Configurations -/

namespace SplitConfig

def toJson (c : SplitConfig) : Value :=
  .object
    [("test_size", .real c.testSize), ("seed", .natural c.seed.toNat), ("shuffle", .bool c.shuffle)]

def ofTree (reals : Reals) (tree : Tree) : Option SplitConfig := do
  let record := Tree.Record.of ["test_size", "seed", "shuffle"] true tree
  return {
    testSize := ← record.defaulted 0 default.testSize (Tree.asReal reals)
    seed := ← record.defaulted 1 default.seed fun tree => (Tree.asNatural tree).map UInt64.ofNat
    shuffle := ← record.defaulted 2 default.shuffle Tree.asBool }

end SplitConfig

/-! ## Splits -/

namespace Split

def toJson (s : Split) : Value :=
  .object
    [("x_train", s.xTrain.toJson), ("x_test", s.xTest.toJson), ("y_train", s.yTrain.toJson),
      ("y_test", s.yTest.toJson)]

/-- The parts of a split that have been read. -/
structure Parts where
  xTrain : Option Table
  xTest : Option Table
  yTrain : Option Series
  yTest : Option Series

/-- Reads a part. -/
def addPart (reals : Reals) (parts : Parts) (member : Tree.Member) :
    Decoded TableDefect Parts :=
  let table := (Table.ofTree reals member.tree).within member.ordinal
  let series := (Series.ofTree reals member.tree).within member.ordinal
  match member.name with
  | 0 => table.map fun t => { parts with xTrain := some t }
  | 1 => table.map fun t => { parts with xTest := some t }
  | 2 => series.map fun s => { parts with yTrain := some s }
  | _ => series.map fun s => { parts with yTest := some s }

/-- Reads the parts in the order of the text. -/
def ofTree (reals : Reals) (tree : Tree) : Decoded TableDefect Split := do
  let record := Tree.Record.of ["x_train", "x_test", "y_train", "y_test"] false tree
  let parts ← record.members.foldlM (addPart reals) ⟨none, none, none, none⟩
  match record.sound, parts with
  | true, ⟨some xTrain, some xTest, some yTrain, some yTest⟩ =>
    return { xTrain, xTest, yTrain, yTest }
  | _, _ => .error .malformed

end Split

/-- The message for a text that is refused by the rules of tables; malformed text has none of the
library's own. -/
def refusalMessage (text : String) : Rejection TableDefect → Option String
  | .malformed => none
  | .refused place defect =>
    let message := (Fault.invalidDataset defect).message
    match place with
    | [] => some message
    | member :: _ =>
      match Json.positionAfterRefusal member text.toList with
      | some position => some s!"{message} at line {position.line} column {position.column}"
      | none => some message

end Tableflow
