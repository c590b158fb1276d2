import Tableflow.Files.Path
import Tableflow.Files.System

/-!
# File trees

A file system as a value: the files and directories around a top directory, in which all paths
start. Paths are followed name by name, as systems do: a name is looked up in a directory or not at
all, a dot stays and two dots go up, and a slash at the end asks for a directory. The directories
above the top one are there too; nothing is known to be in them.
-/

namespace Tableflow

/-- What stands at a place of a file tree. -/
inductive FileNode
  | file (content : ByteArray)
  | directory

namespace FileNode

def isDirectory : FileNode → Bool
  | .directory => true
  | .file _ => false

end FileNode

/-- Files and directories around a top directory; a place is the list of names that lead to it, with
two dots in front for every directory that it lies above the top one. -/
structure FileTree where
  nodes : List (List String × FileNode)

namespace FileTree

def empty : FileTree := ⟨[]⟩

instance : Inhabited FileTree := ⟨empty⟩

/-- Whether a place is the top directory or one above it. -/
def isAbove (place : List String) : Bool := place.all (· = "..")

/-- What stands at a place. -/
def node? (t : FileTree) (place : List String) : Option FileNode :=
  if isAbove place then some .directory else t.nodes.lookup place

/-- Puts something at a place, in place of what is there. -/
def put (t : FileTree) (place : List String) (node : FileNode) : FileTree :=
  ⟨(place, node) :: t.nodes.filter fun entry => entry.1 ≠ place⟩

/-! ## Following paths -/

/-- Whether there is a directory at a place, where there is something. -/
def isDirectoryAt (t : FileTree) (place : List String) : Bool :=
  (t.node? place).any FileNode.isDirectory

/-- The longest name of a file, in bytes. -/
def nameLimit : Nat := 255

/-- The longest path, in bytes. -/
def pathLimit : Nat := 4095

/-- Looks up a name at a place. -/
def enter (t : FileTree) (place : List String) (name : String) : Except FileFault (List String) :=
  if !t.isDirectoryAt place then .error .notADirectory
  else if name = "." then .ok place
  else if name = ".." then .ok (if isAbove place then place ++ [".."] else place.dropLast)
  else if nameLimit < name.utf8ByteSize then .error .nameTooLong
  else if (t.node? (place ++ [name])).isSome then .ok (place ++ [name])
  else .error .notFound

/-- The names in a path, if it can be one. -/
def names (path : String) : Except FileFault (List String) :=
  if path.contains (Char.ofNat 0) then .error .nulInPath
  else if path.isEmpty then .error .notFound
  else if pathLimit < path.utf8ByteSize then .error .nameTooLong
  else .ok ((Path.pieces path).filter (· ≠ ""))

/-- Whether a path ends in a slash. -/
def endsInSlash (path : String) : Bool := path.toList.getLast? = some '/'

/-- The place to which a path leads. -/
def locate (t : FileTree) (path : String) : Except FileFault (List String) := do
  let place ← (← names path).foldlM t.enter []
  if endsInSlash path && !t.isDirectoryAt place then .error .notADirectory
  else return place

def isDirectory (t : FileTree) (path : String) : Bool :=
  match t.locate path with
  | .ok place => t.isDirectoryAt place
  | .error _ => false

/-- The directory in which the last name of a path is looked up, and that name, unless it is a dot
or two. -/
def locateLast (t : FileTree) (path : String) :
    Except FileFault (List String × Option String) := do
  let names ← names path
  let place ← names.dropLast.foldlM t.enter []
  match names.getLast? with
  | none => return (place, none)
  | some name =>
    if !t.isDirectoryAt place then .error .notADirectory
    else if name = "." || name = ".." then return (place, none)
    else return (place, some name)

/-! ## Operations -/

/-- The content of a file. -/
def read (t : FileTree) (path : String) : Except FileFault ByteArray := do
  match t.node? (← t.locate path) with
  | none => .error .notFound
  | some .directory => .error .isADirectory
  | some (.file content) => return content

/-- Makes a file with the given content, in place of the one there. -/
def write (t : FileTree) (path : String) (content : ByteArray) : Except FileFault FileTree := do
  let (directory, last) ← t.locateLast path
  match last with
  | none => .error .isADirectory
  | some name =>
    let place := directory ++ [name]
    if endsInSlash path then .error .isADirectory
    else if nameLimit < name.utf8ByteSize then .error .nameTooLong
    else if t.isDirectoryAt place then .error .isADirectory
    else return t.put place (.file content)

/-- Makes a directory where there is nothing. -/
def createDirectory (t : FileTree) (path : String) : Except FileFault FileTree := do
  let (directory, last) ← t.locateLast path
  match last with
  | none => .error .alreadyExists
  | some name =>
    let place := directory ++ [name]
    if nameLimit < name.utf8ByteSize then .error .nameTooLong
    else if (t.node? place).isSome then .error .alreadyExists
    else return t.put place .directory

/-- Runs an operation that changes a tree or leaves it as it is. -/
def change (operation : FileTree → Except FileFault FileTree) :
    StateM FileTree (Except FileFault Unit) :=
  modifyGet fun t =>
    match operation t with
    | .ok changed => (.ok (), changed)
    | .error fault => (.error fault, t)

instance : FileSystem (StateM FileTree) where
  readBytes path := return (← get).read path
  writeText path content := change fun t => t.write path content.toUTF8
  createDirectory path := change fun t => t.createDirectory path
  isDirectory path := return (← get).isDirectory path

/-- The files below the top directory with their paths. -/
def files (t : FileTree) : List (String × ByteArray) :=
  t.nodes.filterMap fun
    | (place, .file content) =>
      if place.head? = some ".." then none else some ("/".intercalate place, content)
    | (_, .directory) => none

end FileTree

end Tableflow
