import Tableflow.Facets.Comparison
import Tableflow.Fault
import Tableflow.Json.Inspect

/-!
# Artifacts

What flows along the edges of a pipeline: a value of one of the kinds of values, with notes about
it under text keys. Steps may hand on values of any type, so the kinds are open: a type that is not
spelled out here is a kind under its own name. Whoever reads an artifact says which kind is
expected; another kind is a fault that names both (`read_eq_ok_iff`).
-/

namespace Tableflow

/-! ## Kinds -/

/-- The kinds of values that an artifact can hold. -/
inductive Kind
  | int64
  | uint8
  | uint32
  | uint64
  | double
  | bool
  | string
  | list (items : Kind)
  | table
  | series
  | comparison
  /-- Any further type, told by its name, with values told by how they are written. -/
  | other (name : String)
  deriving DecidableEq

namespace Kind

/-- The values of a kind. -/
@[reducible] def Carrier : Kind → Type
  | .int64 => Int64
  | .uint8 => UInt8
  | .uint32 => UInt32
  | .uint64 => UInt64
  | .double => Double
  | .bool => Bool
  | .string => String
  | .list items => List items.Carrier
  | .table => Table
  | .series => Series
  | .comparison => Comparison
  | .other _ => Json.Value

/-- The name of a kind in faults and records. It does not tell the kind, for two types may go by
one name. -/
def typeName : Kind → String
  | .int64 => "i64"
  | .uint8 => "u8"
  | .uint32 => "u32"
  | .uint64 => "u64"
  | .double => "f64"
  | .bool => "bool"
  | .string => "alloc::string::String"
  | .list items => "alloc::vec::Vec<" ++ items.typeName ++ ">"
  | .table => "kiln::dataset::table::TabularDataset"
  | .series => "kiln::dataset::table::Series"
  | .comparison => "kiln::facets::comparison::FacetsComparison"
  | .other name => name

end Kind

/-! ## Artifacts -/

/-- A value of some kind with notes about it. -/
structure Artifact where
  kind : Kind
  value : kind.Carrier
  metadata : Dictionary Json.Value

namespace Artifact

/-- The artifact of a value, without notes. -/
def of (kind : Kind) (value : kind.Carrier) : Artifact := ⟨kind, value, .empty⟩

/-- The artifact with a note under a key, in place of the one there. -/
def withMetadata (a : Artifact) (key : String) (note : Json.Value) : Artifact :=
  { a with metadata := a.metadata.insert key note }

/-- The value of an artifact, if it is of a kind. -/
def value? (a : Artifact) (kind : Kind) : Option kind.Carrier :=
  if h : a.kind = kind then some (h ▸ a.value) else none

/-- The value of an artifact of an expected kind; `step` and `name` tell in the fault whose
artifact it is. -/
def read (a : Artifact) (kind : Kind) (step name : String) : Except Fault kind.Carrier :=
  match a.value? kind with
  | some value => .ok value
  | none => .error (.typeMismatch step name kind.typeName a.kind.typeName)

@[simp] theorem value?_self (a : Artifact) : a.value? a.kind = some a.value := by
  simp [value?]

theorem read_eq_ok_iff {a : Artifact} {kind : Kind} {step name : String} :
    (∃ value, a.read kind step name = .ok value) ↔ a.kind = kind := by
  unfold read value?
  by_cases h : a.kind = kind <;> simp [h]

/-- An artifact for inspection: the name of its kind, and the notes. -/
def inspect (a : Artifact) : String :=
  let typeName := Text.quote a.kind.typeName
  let notes := ", ".intercalate (Json.Value.inspectMembers a.metadata.entries)
  "Artifact \x7b type_name: " ++ typeName ++ ", metadata: \x7b" ++ notes ++ "\x7d \x7d"

end Artifact

end Tableflow
