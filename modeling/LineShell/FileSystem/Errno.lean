/-!
# Reasons to refuse

The reasons that the file system and the launching of programs give for a refusal, with the
number and the text by which each is known.
-/

namespace LineShell

/-- Why an operation on files or a launch was refused. -/
inductive Errno
  | noEntry
  | argumentsTooLong
  | execFormat
  | permissionDenied
  | exists
  | notDirectory
  | isDirectory
  | fileBusy
  | noSpace
  | nameTooLong
  | tooManyLinks
deriving DecidableEq, Repr

namespace Errno

def number : Errno → Nat
  | .noEntry => 2
  | .argumentsTooLong => 7
  | .execFormat => 8
  | .permissionDenied => 13
  | .exists => 17
  | .notDirectory => 20
  | .isDirectory => 21
  | .fileBusy => 26
  | .noSpace => 28
  | .nameTooLong => 36
  | .tooManyLinks => 40

def text : Errno → String
  | .noEntry => "No such file or directory"
  | .argumentsTooLong => "Argument list too long"
  | .execFormat => "Exec format error"
  | .permissionDenied => "Permission denied"
  | .exists => "File exists"
  | .notDirectory => "Not a directory"
  | .isDirectory => "Is a directory"
  | .fileBusy => "Text file busy"
  | .noSpace => "No space left on device"
  | .nameTooLong => "File name too long"
  | .tooManyLinks => "Too many levels of symbolic links"

end Errno

end LineShell
