import Tableflow.Files.Fault
import Tableflow.Files.Path

/-!
# File systems

What a program asks of the files it works with, as operations of a monad. Paths are texts in which
slashes separate the names of directories.
-/

namespace Tableflow

/-- A monad in which files can be read and written. -/
class FileSystem (m : Type → Type) where
  /-- The content of a file. -/
  readBytes : String → m (Except FileFault ByteArray)
  /-- Makes a file with the given content, in place of the one there. -/
  writeText : String → String → m (Except FileFault Unit)
  /-- Makes a directory where there is nothing. -/
  createDirectory : String → m (Except FileFault Unit)
  /-- Whether there is a directory. -/
  isDirectory : String → m Bool

namespace FileSystem

instance {m n : Type → Type} [MonadLift m n] [FileSystem m] : FileSystem n where
  readBytes path := liftM (m := m) (readBytes path)
  writeText path content := liftM (m := m) (writeText path content)
  createDirectory path := liftM (m := m) (createDirectory path)
  isDirectory path := liftM (m := m) (isDirectory path)

variable {m : Type → Type} [Monad m] [FileSystem m]

/-! ## Text -/

/-- The text that some content spells. -/
def decode (content : ByteArray) : Except FileFault String :=
  match String.fromUTF8? content with
  | some text => .ok text
  | none => .error .notText

/-- The content of a file, which must be text. -/
def readText (path : String) : m (Except FileFault String) :=
  return (← readBytes path).bind decode

/-! ## Directories -/

/-- Makes a directory, where one that is there already will do. -/
def ensureDirectory (path : String) : m (Except FileFault Unit) := do
  match ← createDirectory path with
  | .ok () => return .ok ()
  | .error fault => return if ← isDirectory path then .ok () else .error fault

/-- Makes a directory and the ones above it that are not there; the fuel bounds their number. -/
def ensureDirectories : Nat → String → m (Except FileFault Unit)
  | 0, _ => return .ok ()
  | fuel + 1, path => do
    if path.isEmpty then return .ok ()
    match ← ensureDirectory path with
    | .error .notFound =>
      match Path.parent? path with
      | none => return .error .notFound
      | some parent =>
        match ← ensureDirectories fuel parent with
        | .ok () => ensureDirectory path
        | .error fault => return .error fault
    | result => return result

/-- Makes a directory and the ones above it, where they are not there. -/
def createDirectories (path : String) : m (Except FileFault Unit) :=
  ensureDirectories (path.length + 1) path

end FileSystem

end Tableflow
