import Std.Time.DateTime.Timestamp
import Tableflow.App.Program

/-!
# The command line

The program in the surroundings of the operating system.
-/

namespace Tableflow.CommandLine

/-- The fault that the system reports. -/
def faultOf : IO.Error → FileFault
  | .noFileOrDirectory .. => .notFound
  | .alreadyExists .. => .alreadyExists
  | .inappropriateType _ 21 _ => .isADirectory
  | .inappropriateType .. => .notADirectory
  | .invalidArgument _ 36 _ => .nameTooLong
  | other => .other (toString other)

/-- Acts on the file of a path. -/
def attempt {α : Type} (path : String) (action : IO α) : IO (Except FileFault α) := do
  if path.contains (Char.ofNat 0) then return .error .nulInPath
  try
    return .ok (← action)
  catch error =>
    return .error (faultOf error)

instance : FileSystem IO where
  readBytes path := attempt path (IO.FS.readBinFile path)
  writeText path content := attempt path (IO.FS.writeFile path content)
  createDirectory path := attempt path (IO.FS.createDir path)
  isDirectory path := do
    match ← attempt path (IO.FS.realPath (path ++ "/.")) with
    | .ok _ => return true
    | .error _ => return false

/-- The content of the file of variables in a directory or in one of the `above` directories above
it. -/
def envFile? (directory : String) : Nat → IO (Option ByteArray)
  | 0 => return none
  | above + 1 => do
    match ← (FileSystem.readBytes (directory ++ ".env") : IO _) with
    | .ok content => return some content
    | .error _ => envFile? (directory ++ "../") above

/-- The variables, terminal and clock of the system. -/
def surroundings : Surroundings IO where
  getVariable := fun name => IO.getEnv name
  print := fun text => IO.print text
  newId := return .ofRandomBytes (← IO.getRandomBytes 16).toList
  now := return ⟨(← Std.Time.Timestamp.now).toNanosecondsSinceUnixEpoch.val.toNat⟩

end Tableflow.CommandLine

/-- Runs the program; the exit code tells whether its work was done. -/
def main : IO UInt32 := do
  let depth := (← IO.currentDir).components.length
  let envFile ← Tableflow.CommandLine.envFile? "" depth
  match ← (Tableflow.Program.run Tableflow.CommandLine.surroundings envFile).run with
  | .ok () => return 0
  | .error ending =>
    IO.eprint ending.report
    return 1
