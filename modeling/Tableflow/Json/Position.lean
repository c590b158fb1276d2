import Tableflow.Json.Tree

/-!
# Places in JSON text

Where reading a container ends when one of its members is refused: after that member, the white
space behind it and the closing bracket, if it follows. A place is told by its line and by the
number of bytes before it in that line.
-/

namespace Tableflow.Json

/-- A place in a text: the line, from one, and the bytes before the place in that line. -/
structure Position where
  line : Nat
  column : Nat
  deriving DecidableEq

/-- The place up to which a text has been read. -/
def Position.after (consumed : List Char) : Position where
  line := consumed.count '\n' + 1
  column := (consumed.reverse.takeWhile (· ≠ '\n')).foldl (fun n c => n + c.utf8Size) 0

/-- The text after the member with a given number, and the bracket that closes the container; the
text begins behind the opening bracket. -/
def afterMember (object : Bool) : Nat → List Char → Option (List Char)
  | count, text => do
    let text ← if object then afterName text else some text
    let rest ← (Tree.read text).2
    match count with
    | 0 => return rest
    | count + 1 =>
      match skipSpace rest with
      | ',' :: rest => afterMember object count rest
      | _ => none
where
  /-- The text after the name of a member and its colon. -/
  afterName (text : List Char) : Option (List Char) :=
    match skipSpace text with
    | '"' :: rest =>
      match readString rest with
      | some (_, rest) =>
        match skipSpace rest with
        | ':' :: rest => some rest
        | _ => none
      | none => none
    | _ => none

/-- The text that is left when a container is given up after the member of the given number. -/
def restAfterRefusal (number : Nat) (text : List Char) : Option (List Char) :=
  match skipSpace text with
  | '{' :: inner => do
    match skipSpace (← afterMember true number inner) with
    | '}' :: rest => return rest
    | rest => return rest
  | '[' :: inner => do
    match skipSpace (← afterMember false number inner) with
    | ']' :: rest => return rest
    | ',' :: rest => return skipSpace rest
    | rest => return rest
  | _ => none

/-- The place at which a container is given up after the member of the given number. -/
def positionAfterRefusal (number : Nat) (text : List Char) : Option Position :=
  (restAfterRefusal number text).map fun rest =>
    Position.after (text.take (text.length - rest.length))

end Tableflow.Json
