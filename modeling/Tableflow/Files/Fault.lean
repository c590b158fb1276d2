/-!
# Faults of the file system
-/

namespace Tableflow

/-- Why a file or a directory cannot be read, written or made. -/
inductive FileFault
  | notFound
  | notADirectory
  | isADirectory
  | alreadyExists
  | nameTooLong
  /-- The path holds a character that ends paths. -/
  | nulInPath
  /-- The content is no text. -/
  | notText
  | other (reason : String)
  deriving DecidableEq, Inhabited

/-- The wording of a fault, with the number that the system gives it. -/
def FileFault.message : FileFault → String
  | .notFound => "No such file or directory (os error 2)"
  | .notADirectory => "Not a directory (os error 20)"
  | .isADirectory => "Is a directory (os error 21)"
  | .alreadyExists => "File exists (os error 17)"
  | .nameTooLong => "File name too long (os error 36)"
  | .nulInPath => "file name contained an unexpected NUL byte"
  | .notText => "stream did not contain valid UTF-8"
  | .other reason => reason

end Tableflow
