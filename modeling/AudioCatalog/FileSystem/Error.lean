/-!
# Failures of file operations

The causes for which an operation on the file system can fail, and how each is
worded in messages.
-/

namespace AudioCatalog

/-- Why a file operation failed. -/
inductive FileError where
  | notFound
  | alreadyExists
  | notADirectory
  | isADirectory
  | nameTooLong
  | tooManyLinks
  | nulInName
  /-- A failure that is known by its wording only. -/
  | other (text : String)
  deriving DecidableEq

/-- The wording of a failure. -/
def FileError.message : FileError → String
  | notFound => "No such file or directory (os error 2)"
  | alreadyExists => "File exists (os error 17)"
  | notADirectory => "Not a directory (os error 20)"
  | isADirectory => "Is a directory (os error 21)"
  | nameTooLong => "File name too long (os error 36)"
  | tooManyLinks => "Too many levels of symbolic links (os error 40)"
  | nulInName => "file name contained an unexpected NUL byte"
  | other text => text

end AudioCatalog
