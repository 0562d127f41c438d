import LineShell.World

/-!
# Looking programs up

A name with a slash in it is the path of a program. Any other name is looked for in the
directories that the variable `PATH` lists, and the first directory that has an executable
of that name is the one that counts. `candidates` gives all programs of a name in order.
-/

namespace LineShell

/-- The directories that `PATH` lists, in order; empty ones are left out. -/
def searchDirectories (env : Environment) : List String :=
  (Text.pieces ':' ((env.lookup "PATH").getD "")).filter (· ≠ "")

namespace World

/-- Whether a path, seen from the directory of the session, names an executable file. -/
def isExecutable (w : World) (path : String) : Bool :=
  w.files.hasExecutable w.here path

/-- The programs of a name, as paths seen from the directory of the session. -/
def candidates (w : World) (name : String) : List String :=
  let cwd := w.session.cwd
  if name = "" then []
  else if name.toList.contains '/' then
    if w.isExecutable (Path.join cwd name) then [name] else []
  else
    ((searchDirectories w.session.env).filter fun dir =>
        w.isExecutable (Path.join (Path.join cwd dir) name)).map
      fun dir => Path.join dir name

end World

namespace Act

def findProgram (name : String) : Act (Option String) := do
  let found := ((← get).candidates name).head?
  let shown := match found with
    | some path => Text.quote path
    | none => "None"
  note .debug .search s!"resolved {Text.quote name} to {shown}"
  return found

end Act

end LineShell
