/-!
Why the file system refuses a request.
-/

namespace LintGate

inductive FileFault
  | missing
  | notDirectory
  | isDirectory
  | denied
  | notText
  | alreadyExists
  | directoryNotEmpty
  | badFormat
  /-- A name of more than 255 bytes, or a path of more than 4095. -/
  | nameTooLong
  /-- Interpreters of interpreters, too many of them. -/
  | tooManyLinks
  | badDescriptor
  /-- A null character in a file name. -/
  | nullInName
  /-- A null character in a part of a command. -/
  | nullInCommand
  deriving DecidableEq, Repr

/-- The text of the operating system, or of the reader that wants UTF-8. -/
def FileFault.message : FileFault → String
  | .missing => "No such file or directory (os error 2)"
  | .notDirectory => "Not a directory (os error 20)"
  | .isDirectory => "Is a directory (os error 21)"
  | .denied => "Permission denied (os error 13)"
  | .notText => "stream did not contain valid UTF-8"
  | .alreadyExists => "File exists (os error 17)"
  | .directoryNotEmpty => "Directory not empty (os error 39)"
  | .badFormat => "Exec format error (os error 8)"
  | .nameTooLong => "File name too long (os error 36)"
  | .tooManyLinks => "Too many levels of symbolic links (os error 40)"
  | .badDescriptor => "Bad file descriptor (os error 9)"
  | .nullInName => "file name contained an unexpected NUL byte"
  | .nullInCommand => "nul byte found in provided data"

/-- The text without the number of the error. -/
def FileFault.reason (f : FileFault) : String :=
  (f.message.splitOn " (os").headD ""

end LintGate
