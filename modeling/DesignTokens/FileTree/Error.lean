/-!
# Errors of file operations

Why an operation on a file tree fails, and the wording for it.
-/

set_option autoImplicit false

namespace DesignTokens

/-- Why a file operation fails. -/
inductive FileError where
  | notFound
  | busy
  | alreadyExists
  | notDirectory
  | isDirectory
  | nameTooLong
  | tooManyLinks
  /-- The content of a file is not text. -/
  | notText
deriving DecidableEq, Repr

/-- The wording for a file error; those of the operating system have its number. -/
def FileError.message : FileError → String
  | .notFound => "No such file or directory (os error 2)"
  | .busy => "Device or resource busy (os error 16)"
  | .alreadyExists => "File exists (os error 17)"
  | .notDirectory => "Not a directory (os error 20)"
  | .isDirectory => "Is a directory (os error 21)"
  | .nameTooLong => "File name too long (os error 36)"
  | .tooManyLinks => "Too many levels of symbolic links (os error 40)"
  | .notText => "stream did not contain valid UTF-8"

end DesignTokens
