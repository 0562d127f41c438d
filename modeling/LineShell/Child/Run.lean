import LineShell.Child.Image
import LineShell.FileSystem.Listing
import LineShell.World

/-!
# Running programs

A child is a program that runs while the shell waits. Its actions are carried out in order,
and its output goes to where the streams of the command go, past all buffers. A refused
action is skipped. `Child.run` gives the way the child ended beside the world after it.
-/

namespace LineShell

structure Child where
  arguments : List String
  env : Environment
  directory : NodeId
deriving DecidableEq, Repr

inductive Ending
  | finished (status : Nat)
  | killed (signal : Nat)
deriving DecidableEq, Repr

/-- The status of a command that ended so: deaths are counted from 128 on. -/
def Ending.status : Ending → Int
  | .finished status => status
  | .killed signal => 128 + signal

namespace World

/-- The world after a child wrote to a stream. What a child writes to a stream that takes
characters only is not shown. -/
def receive (w : World) (c : Channel) (bytes : Bytes) : World :=
  match w.redirects.get c with
  | some file =>
    match OpenFile.write bytes (file, w.files) with
    | .ok () (file, files) => { w with files, redirects := w.redirects.set c (some file) }
    | .error _ _ => w
  | none => if w.console.textOnly then w else w.onTerminal c (·.write bytes)

/-- The world with other files, or as it was where the files could not be changed. -/
def withFiles (w : World) : Except ε FileSystem → World
  | .ok files => { w with files }
  | .error _ => w

end World

namespace Child

def variableLine (env : Environment) (name : String) : String :=
  match env.lookup name with
  | some value => s!"{name}={value}\n"
  | none => s!"{name} unset\n"

def writeFile (fs : FileSystem) (here : NodeId) (path text : String) : Except Fault FileSystem := do
  let (id, fs) ← fs.openToWrite here path false
  match fs.writeTo id false 0 (Utf8.encode text) with
  | .ok (_, fs) => .ok fs
  | .error e => .error (.refused e)

/-- The world after an action that does not end the child. -/
def perform (child : Child) (w : World) : Action → World
  | .out text => w.receive .out (Utf8.encode text)
  | .err text => w.receive .err (Utf8.encode text)
  | .showArguments =>
    w.receive .out (Utf8.encode (String.join (child.arguments.map fun a => s!"[{a}]\n")))
  | .showDirectory => w.receive .out (Utf8.encode (w.files.pathTo child.directory ++ "\n"))
  | .showVariable name => w.receive .out (Utf8.encode (variableLine child.env name))
  | .write path text => w.withFiles (writeFile w.files child.directory path text)
  | .remove path => w.withFiles (w.files.remove child.directory path)
  | .permit path access => w.withFiles (w.files.permit child.directory path access)
  | .interrupt => w
  | .die _ => w
  | .finish _ => w

/-- Carries actions out up to the one that ends the child. -/
def runActions (child : Child) : List Action → World → Ending × World
  | [], w => (.finished 0, w)
  | .finish status :: _, w => (.finished (status % 256), w)
  | .die signal :: _, w => (.killed signal, w)
  | action :: actions, w => runActions child actions (child.perform w action)

/-- The actions of a program. The reader of scripts takes them from the file that its first
argument names, options apart. A file without an end it reads until it is killed. -/
def actionsOf (child : Child) (files : FileSystem) : Program → List Action
  | .actions actions => actions
  | .scriptReader =>
    match child.arguments.dropWhile fun a => "-".toList.isPrefixOf a.toList with
    | [] => []
    | script :: _ =>
      match files.read child.directory script with
      | some (.ok data) => Image.scriptActions (Utf8.decode data)
      | some (.error e) => [.err s!"/bin/sh: 0: cannot open {script}: {e.text}\n", .finish 2]
      | none => [.die 9]

def run (child : Child) (program : Program) (w : World) : Ending × World :=
  child.runActions (child.actionsOf w.files program) w

end Child

end LineShell
