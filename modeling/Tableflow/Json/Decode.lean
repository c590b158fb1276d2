import Tableflow.Dictionary
import Tableflow.Json.Tree
import Tableflow.Json.Value

/-!
# Interpreting JSON trees

Decoders turn a tree into a value of some type. They look at a tree in the order of its text and
report the first defect. A defect is either one of form (`malformed`), or a value that is well
formed but refused by a rule of its type, with the place where it stands.

Integers are accepted where doubles are expected and not the other way round; null stands for an
absent value. A record is an object of its members, in any order, of which unknown ones are skipped
and none may be repeated; or an array of its members in their order. A choice between types is told
by a tag, which stands beside the members (`splitTag`) or beside the content (`readChoice`).
-/

namespace Tableflow.Json

/-- Why a text is not accepted as a value of a type. -/
inductive Rejection (ε : Type)
  | malformed
  /-- The value at a place (the ordinals of the members that lead to it) breaks a rule. -/
  | refused (place : List Nat) (cause : ε)
  deriving DecidableEq

/-- The result of decoding. -/
abbrev Decoded (ε α : Type) := Except (Rejection ε) α

namespace Decoded

variable {ε α : Type}

/-- A value, or malformed text. -/
def ofOption : Option α → Decoded ε α
  | some a => .ok a
  | none => .error .malformed

/-- A value that is well formed and is checked by the rule of its type. -/
def checked : Except ε α → Decoded ε α
  | .ok a => .ok a
  | .error cause => .error (.refused [] cause)

/-- The result of decoding a member with the given ordinal. -/
def within (ordinal : Nat) : Decoded ε α → Decoded ε α
  | .error (.refused place cause) => .error (.refused (ordinal :: place) cause)
  | result => result

end Decoded

namespace Tree

variable {ε α : Type}

/-! ## Scalars and lists -/

def asText : Tree → Option String
  | .string s => s
  | _ => none

def asBool : Tree → Option Bool
  | .bool b => some b
  | _ => none

/-- A natural number that a word holds. -/
def asNatural : Tree → Option Nat
  | .number n =>
    match n.value exactReal with
    | some (.integer (.ofNat size)) => some size
    | _ => none
  | _ => none

/-- A double; integers count as the nearest one. -/
def asReal (reals : Reals) : Tree → Option Double
  | .number n =>
    match n.value reals with
    | some (.real x) => some x
    | some (.integer k) => some (Double.nearest (k < 0) k.natAbs 1)
    | none => none
  | _ => none

/-- A value that may be absent. -/
def asOptional (decode : Tree → Option α) : Tree → Option (Option α)
  | .null => some none
  | tree => (decode tree).map some

/-- A list of values. -/
def asList (decode : Tree → Option α) : Tree → Option (List α)
  | .array items => items.mapM decode
  | _ => none

/-- Values under names; of values with one name the last counts. -/
def asDictionary (decode : Tree → Option α) : Tree → Option (Dictionary α)
  | .object members => do
    let entries ← members.mapM fun (name, tree) => return (← name, ← decode tree)
    return Dictionary.ofList entries
  | _ => none

/-! ## Records -/

/-- A known member of a record. -/
structure Member where
  /-- The member's number among the known names. -/
  name : Nat
  /-- The member's number in the text. -/
  ordinal : Nat
  tree : Tree

/-- The known members of a record in the order of the text, up to the first defect of the record
itself, and whether there was none. -/
structure Record where
  members : List Member
  sound : Bool

namespace Record

/-- Adds the members of an object to a record. -/
def ofMembers (names : List String) (found : List Member) (ordinal : Nat) :
    List (Option String × Tree) → Record
  | [] => ⟨found.reverse, true⟩
  | (none, _) :: _ => ⟨found.reverse, false⟩
  | (some name, tree) :: rest =>
    match names.idxOf? name with
    | some i =>
      if found.any (·.name = i) then ⟨found.reverse, false⟩
      else ofMembers names (⟨i, ordinal, tree⟩ :: found) (ordinal + 1) rest
    | none =>
      if tree.isWhole then ofMembers names found (ordinal + 1) rest
      else ⟨found.reverse, false⟩

/-- The members of an array, one for each name. If members have defaults, the last ones may be
left out. -/
def ofItems (names : List String) (defaults : Bool) (items : List Tree) : Record :=
  let members := (items.take names.length).mapIdx fun i tree => ⟨i, i, tree⟩
  ⟨members, items.length = names.length || (defaults && items.length ≤ names.length)⟩

/-- A tree as a record with members of the given names. -/
def of (names : List String) (defaults : Bool) : Tree → Record
  | .object members => ofMembers names [] 0 members
  | .array items => ofItems names defaults items
  | _ => ⟨[], false⟩

/-- The member of a name, if it is there. -/
def member? (record : Record) (name : Nat) : Option Tree :=
  (record.members.find? (·.name = name)).map (·.tree)

/-- A member that must be there. -/
def required (record : Record) (name : Nat) (decode : Tree → Option α) : Option α := do
  guard record.sound
  decode (← record.member? name)

/-- A member that has a default. -/
def defaulted (record : Record) (name : Nat) (default : α) (decode : Tree → Option α) :
    Option α := do
  guard record.sound
  match record.member? name with
  | some tree => decode tree
  | none => return default

/-- A member that may be absent, or null. -/
def optional (record : Record) (name : Nat) (decode : Tree → Option α) : Option (Option α) :=
  record.defaulted name none (asOptional decode)

end Record

/-! ## Choices -/

mutual

/-- Whether a value can be set aside before its type is known: it is whole, its numbers are in
range, its strings have a text, and it nests at most `depth` containers. -/
def isHoldable (reals : Reals) (depth : Nat) : Tree → Bool
  | .null | .bool _ => true
  | .number n => (n.value reals).isSome
  | .string s => s.isSome
  | .array items =>
    match depth with
    | 0 => false
    | depth + 1 => areHoldable reals depth items
  | .object members =>
    match depth with
    | 0 => false
    | depth + 1 => membersAreHoldable reals depth members
  | .torn => false

def areHoldable (reals : Reals) (depth : Nat) : List Tree → Bool
  | [] => true
  | item :: rest => isHoldable reals depth item && areHoldable reals depth rest

def membersAreHoldable (reals : Reals) (depth : Nat) : List (Option String × Tree) → Bool
  | [] => true
  | (name, value) :: rest =>
    name.isSome && isHoldable reals depth value && membersAreHoldable reals depth rest

end

/-- A tag that stands beside the members of a record, as the member `tag` of an object or as the
first item of an array; the rest is set aside meanwhile and must nest at most `depth` containers. -/
def splitTag (reals : Reals) (depth : Nat) (tag : String) : Tree → Option (String × Tree)
  | .object members => do
    let isTag := fun (member : Option String × Tree) => member.1 = some tag
    let [(_, name)] := members.filter isTag | none
    let others := members.filter (!isTag ·)
    guard (membersAreHoldable reals depth others)
    return (← name.asText, .object others)
  | .array (name :: rest) => do
    guard (areHoldable reals depth rest)
    return (← name.asText, .array rest)
  | _ => none

/-- The name of an alternative: a string, or an object whose one member has that name and is
null. -/
def asAlternative : Tree → Option String
  | .object [(name, .null)] => name
  | tree => tree.asText

/-- How the tag of a choice is read: as an alternative if the choice is an object, and as a string
if it is an array. -/
def choiceTag : Tree → Tree → Option String
  | .object _ => asAlternative
  | _ => asText

/-- A choice with its tag and its content beside one another. -/
def readChoice (tag content : String) (decode : String → Tree → Option α) (tree : Tree) :
    Option α := do
  let record := Record.of [tag, content] false tree
  let name ← record.required 0 (choiceTag tree)
  record.required 1 (decode name)

end Tree

/-! ## Whole texts -/

/-- The value that a whole text spells; after it only white space may follow. -/
def decodeText {ε α : Type} (decode : Tree → Decoded ε α) (text : String) : Decoded ε α := do
  let (tree, rest) := Tree.read text.toList
  let value ← decode tree
  match rest.map skipSpace with
  | some [] => return value
  | _ => .error .malformed

theorem decodeText_eq_ok_iff {ε α : Type} {decode : Tree → Decoded ε α} {text : String} {a : α} :
    decodeText decode text = .ok a ↔
      decode (Tree.read text.toList).1 = .ok a ∧
        (Tree.read text.toList).2.map skipSpace = some [] := by
  simp only [decodeText]
  cases decode (Tree.read text.toList).1 with
  | error e => simp [bind, Except.bind]
  | ok value =>
    simp only [bind, Except.bind]
    split
    · next h => simp [h, pure, Except.pure]
    · next h => exact iff_of_false (fun hok => nomatch hok) fun hok => h hok.2

/-- What is refused, is refused whatever follows it in the text. -/
theorem decodeText_of_error {ε α : Type} {decode : Tree → Decoded ε α} {text : String}
    {e : Rejection ε} (h : decode (Tree.read text.toList).1 = .error e) :
    decodeText decode text = .error e := by
  simp only [decodeText, h]
  rfl

/-- The value of a tree, with the members of objects sorted by name and only the last of equal
names kept. -/
def Tree.asValue (reals : Reals) : Nat → Tree → Option Value
  | 0, _ => none
  | fuel + 1, tree =>
    match tree with
    | .null => some .null
    | .bool b => some (.bool b)
    | .number n =>
      (n.value reals).map fun
        | .integer k => .integer k
        | .real x => .real x
    | .string s => s.map .string
    | .array items => (items.mapM (Tree.asValue reals fuel)).map .array
    | .object members =>
      (Tree.asDictionary (Tree.asValue reals fuel) (.object members)).map fun d => .object d.entries
    | .torn => none

end Tableflow.Json
