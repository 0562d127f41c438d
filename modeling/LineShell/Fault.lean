import LineShell.FileSystem.Errno
import LineShell.Text.Quoted

/-!
# Faults

What can stop an action of the shell half-way. Most faults are caught where a command can
say what went wrong; the others end the command, and the shell reports `Fault.message`.
-/

namespace LineShell

/-- Why an action stopped. -/
inductive Fault
  | refused (reason : Errno)
  /-- A text that holds the character NUL was to be used as a path, an argument or a
  variable. -/
  | nullByte
  /-- A variable of the environment has a name with an equals sign in it. -/
  | illegalVariableName
  /-- Too many directories on the way to a file were missing. -/
  | tooDeep
  /-- A file without an end was to be read: memory is full before that is done. -/
  | endless
  | notBuiltin (name : String)
deriving DecidableEq, Repr

namespace Fault

def message : Fault → String
  | .refused reason => s!"[Errno {reason.number}] {reason.text}"
  | .nullByte => "embedded null byte"
  | .illegalVariableName => "illegal environment variable name"
  | .tooDeep => "maximum recursion depth exceeded"
  | .endless => ""
  | .notBuiltin name => Text.quote name ++ " is not a valid Builtin"

end Fault

/-- Whether a text holds the character NUL, which ends a text for the operating system. -/
def holdsNull (s : String) : Bool :=
  s.toList.contains '\x00'

end LineShell
