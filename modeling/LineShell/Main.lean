import LineShell.CommandLine
import LineShell.FileSystem.Setup

/-!
# The program

Starts the shell in an empty directory of a tree of files that is kept in memory, with the
arguments, the input and the variables of the process.
-/

namespace LineShell

/-- The variables that the shell itself asks for. -/
def variableNames : List String :=
  ["HOME", "PATH", "MINISHELL_PROMPT", "MINISHELL_COLORS", "MINISHELL_LOG_LEVEL", "NO_COLOR"]

/-- The variables that are set. -/
def readEnvironment : List String → IO Environment
  | [] => return []
  | name :: names => do
    let others ← readEnvironment names
    match ← IO.getEnv name with
    | some value => return (name, value) :: others
    | none => return others

/-- The whole input. -/
partial def readInput (stream : IO.FS.Stream) (read : String) : IO String := do
  let line ← stream.getLine
  if line.isEmpty then return read else readInput stream (read ++ line)

/-- Writes the bytes that the shell showed on one of its streams. -/
def showBytes (stream : IO.FS.Stream) (bytes : Bytes) : IO Unit := do
  stream.write (ByteArray.mk bytes.toArray)
  stream.flush

end LineShell

open LineShell in
def main (arguments : List String) : IO UInt32 := do
  let stdin ← IO.getStdin
  let stdout ← IO.getStdout
  let files := FileSystem.initial "home"
  let here := FileSystem.workplace
  let env ← readEnvironment variableNames
  let world : World :=
    { files, here
      session := { cwd := files.pathTo here, env }
      console := { isTerminal := ← stdout.isTty } }
  let stamp := toString (← IO.monoMsNow)
  let (status, world) := world.start stamp arguments (← readInput stdin "")
  showBytes stdout world.terminals.out.shown
  showBytes (← IO.getStderr) world.terminals.err.shown
  return exitCode status
