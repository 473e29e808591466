/-!
# Failures of file operations
-/

namespace CamStream

/-- Why a file operation fails. -/
inductive FileError where
  | notFound
  | notADirectory
  | isADirectory
  | alreadyExists
  /-- A name or a path exceeds what the file system can hold. -/
  | nameTooLong
  /-- The path holds a NUL character. -/
  | invalidPath
  /-- The bytes of a file are not a UTF-8 text. -/
  | invalidText
  /-- Any other failure. -/
  | other
deriving DecidableEq, Repr

namespace FileError

/-- What the user is told. -/
def message : FileError → String
  | notFound => "No such file or directory (os error 2)"
  | notADirectory => "Not a directory (os error 20)"
  | isADirectory => "Is a directory (os error 21)"
  | alreadyExists => "File exists (os error 17)"
  | nameTooLong => "File name too long (os error 36)"
  | invalidPath => "file name contained an unexpected NUL byte"
  | invalidText => "stream did not contain valid UTF-8"
  | other => "other error"

end FileError

end CamStream
