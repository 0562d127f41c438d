import LineShell.Child.Run

/-!
# Launching programs

`Act.launch` starts the program of a path in the directory of the session, waits for it and
gives the status of its ending. Before that everything that the shell itself has printed is
written, so that the output of the child comes after it. A launch that the operating system
refuses gives the reason; one with texts that cannot be handed over is a fault.
-/

namespace LineShell.Act

/-- Why texts cannot be handed over to a program. -/
def handoverFault? (path : String) (arguments : List String) (s : Session) : Option Fault :=
  if s.env.any fun (name, _) => name.toList.contains '=' then some .illegalVariableName
  else if holdsNull path || arguments.any holdsNull || holdsNull s.cwd
      || s.env.any fun (name, value) => holdsNull name || holdsNull value then
    some .nullByte
  else none

def openNodes (w : World) : List NodeId :=
  (w.redirects.out.toList ++ w.redirects.err.toList).map (·.node)

/-- The program behind the path `file` and the child that is to run it: it enters the
directory of the session and sees the path from there. -/
def prepareChild (w : World) (file : String) (arguments : List String) :
    Except Errno (Program × Child) := do
  let directory ← w.files.enter w.here w.session.cwd
  let image ← w.files.image (openNodes w) directory file arguments w.session.env
  return (image.program, { arguments := image.arguments, env := w.session.env, directory })

/-- Runs the program behind the path `file`, which the user called `name`, to its end. -/
def runChild (name file : String) (arguments : List String) : Act (Except Errno Int) := do
  let w ← get
  match prepareChild w file arguments with
  | .error e => return .error e
  | .ok (program, child) =>
    let (ending, after) := child.run program w
    set after
    note .debug .execution s!"{name} exited with {ending.status}"
    return .ok ending.status

/-- Hands the program behind the path `file` to the operating system, under the name `name`
and with arguments, and waits for its end. -/
def start (name file : String) (arguments : List String) : Act (Except Errno Int) := do
  match handoverFault? file (name :: arguments) (← get).session with
  | some fault => throw fault
  | none => runChild name file arguments

/-- Launches the program `path`, which the user called `name`, by `starter`, and waits for its
end. -/
def launch (starter : (name file : String) → (arguments : List String) → Act (Except Errno Int))
    (name path : String) (arguments : List String) : Act (Except Errno Int) := do
  modify World.flushTerminals
  note .debug .execution
    s!"launching {path} as {Text.quote name} with {Text.quoteList arguments}"
  starter name (Path.join (← get).session.cwd path) arguments

end LineShell.Act
