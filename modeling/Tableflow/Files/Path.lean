import Tableflow.Text.Line

/-!
# Paths

Paths are texts. Between slashes stand the names of directories, the last one being that of the
file; an empty name, and a dot that does not stand at the front, name nothing, so they are passed
over where a path is taken apart.
-/

namespace Tableflow.Path

/-- Splits off the front of a path that is no name: the slash of an absolute path, or a dot that
stands by itself. -/
def splitRoot : List Char → List Char × List Char
  | '/' :: rest => (['/'], rest)
  | ['.'] => (['.'], [])
  | '.' :: '/' :: rest => (['.'], '/' :: rest)
  | path => ([], path)

/-- Whether a piece between slashes names nothing. -/
def isVoid (piece : List Char) : Bool := piece = [] || piece = ['.']

/-- The path of the directory in which a path's last name stands; it is empty for a name alone, and
absent for paths without a name. -/
def parent? (path : String) : Option String :=
  let (root, body) := splitRoot path.toList
  match (Text.fields '/' body).reverse.dropWhile isVoid with
  | _ :: above =>
    let kept := (above.dropWhile isVoid).reverse
    some (String.ofList (root ++ ['/'].intercalate kept))
  | [] => if root = ['.'] then some "" else none

/-- The path of a name in a directory. -/
def join (directory name : String) : String :=
  if directory.isEmpty || directory.toList.getLast? = some '/' then directory ++ name
  else directory ++ "/" ++ name

/-- The pieces of a path between slashes. -/
def pieces (path : String) : List String := (Text.fields '/' path.toList).map String.ofList

end Tableflow.Path
