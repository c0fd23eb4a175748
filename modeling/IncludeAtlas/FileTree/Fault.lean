/-!
# Faults of a file system

Why a path could not be opened, read, made or written.

## Main Definitions

* `IoFault`: the cause
* `IoFault.message`: its wording, with the number the operating system gives it
-/

namespace IncludeAtlas

/-- Why an operation on a path failed. -/
inductive IoFault where
  | notFound
  | notADirectory
  | isADirectory
  | alreadyExists
  | nameTooLong
  | tooManyLinks
  | notText
  | nulByte
  deriving DecidableEq, Repr

/-- The wording of a fault. -/
def IoFault.message : IoFault → String
  | .notFound => "No such file or directory (os error 2)"
  | .alreadyExists => "File exists (os error 17)"
  | .notADirectory => "Not a directory (os error 20)"
  | .isADirectory => "Is a directory (os error 21)"
  | .nameTooLong => "File name too long (os error 36)"
  | .tooManyLinks => "Too many levels of symbolic links (os error 40)"
  | .notText => "stream did not contain valid UTF-8"
  | .nulByte => "file name contained an unexpected NUL byte"

end IncludeAtlas
