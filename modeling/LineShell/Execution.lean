import LineShell.Builtin.Run
import LineShell.Child.Launch

/-!
# Carrying commands out

`Act.execute` carries one command out: it opens the files that stand in for the streams,
lets a builtin or a program do its work, closes the files in every case and keeps the
status. The file for the standard error is opened first, so that a failure to open the other
one is reported there. Who does the work is a parameter on the way there (`Workers`).
-/

namespace LineShell

/-- A file of a redirection that could not be opened, by the path that the user gave. -/
structure Refusal where
  path : String
  reason : Errno
deriving DecidableEq, Repr

def Refusal.message (r : Refusal) : String :=
  s!"{r.path}: {r.reason.text}"

def notFoundStatus : Int := 127

def notLaunchedStatus : Int := 126

/-- The status when a command fails before or beside its own work. -/
def failureStatus : Int := 1

/-- Who does the work of a command. -/
structure Workers where
  builtin : Builtin → List String → Act Int
  /-- Runs the program behind a path, under a name and with arguments, to its end. -/
  program : (name file : String) → (arguments : List String) → Act (Except Errno Int)

/-- The shell carries its builtins out and starts programs itself. -/
def Workers.usual : Workers :=
  { builtin := Builtin.run, program := Act.start }

/-! ## Opening and closing files -/

namespace FileSystem

/-- Opens the file of a redirection for writing and makes the directories on the way to it. -/
def openTarget (fs : FileSystem) (here : NodeId) (path : Path) (append : Bool) :
    FileSystem × Except Fault NodeId :=
  match fs.makeDirectories here path.root path.parts.reverse.tail with
  | (fs, .error fault) => (fs, .error fault)
  | (fs, .ok ()) =>
    match fs.openToWrite here path.toString append with
    | .error fault => (fs, .error fault)
    | .ok (id, fs) => (fs, .ok id)

end FileSystem

namespace Act

/-- Lets a file stand in for a stream. A refusal of the file system is given back; a path
that ends in a slash names a directory and is refused before anything else. -/
def openRedirect (c : Channel) : Option Redirect → Act (Option Refusal)
  | none => return none
  | some r =>
    if Path.endsInSlash r.path then return some ⟨r.path, .isDirectory⟩
    else do
      let w ← get
      let path := Path.resolve w.session.cwd r.path
      let (files, outcome) := w.files.openTarget w.here path r.append
      set { w with files }
      match outcome with
      | .ok node =>
        let file : OpenFile := { path := path.toString, node, append := r.append }
        modify fun w => { w with redirects := w.redirects.set c (some file) }
        return none
      | .error (.refused e) => return some ⟨r.path, e⟩
      | .error fault => throw fault

/-- Opens the files of a command, that of the standard error first. -/
def openRedirects (command : Command) : Act (Option Refusal) := do
  match ← openRedirect .err command.stderr with
  | some refusal => return some refusal
  | none => openRedirect .out command.stdout

end Act

namespace World

/-- The world with the file of one stream closed. That something in its buffers could not be
written is noted. -/
def closeRedirect (w : World) (c : Channel) : World :=
  match w.redirects.get c with
  | none => w
  | some file =>
    let (files, failure) := file.close w.files
    let w := { w with files, redirects := w.redirects.set c none }
    match failure with
    | none => w
    | some e =>
      w.note .warning .execution s!"could not close {file.path}: {(Fault.refused e).message}"

/-- The world with the files of both streams closed, in the order in which they are opened. -/
def closeRedirects (w : World) : World :=
  (w.closeRedirect .err).closeRedirect .out

end World

namespace Act

/-- An action after which the files of both streams are closed, whatever its outcome. -/
def closing (act : Act α) : Act α := fun w =>
  match act w with
  | .ok a w => .ok a w.closeRedirects
  | .error fault w => .error fault w.closeRedirects

/-! ## Commands -/

/-- The status that a launch comes to. One that was refused is reported. -/
def launchStatus (name : String) : Except Errno Int → Act Int
  | .ok status => return status
  | .error e => do
    report s!"minishell: {name}: {e.text}"
    return notLaunchedStatus

def dispatch (workers : Workers) (name : String) (arguments : List String) : Act Int := do
  match Builtin.ofName? name with
  | some b =>
    note .debug .execution s!"builtin {b.name} {Text.quoteList arguments}"
    workers.builtin b arguments
  | none =>
    match ← findProgram name with
    | none =>
      report s!"{name}: command not found"
      return notFoundStatus
    | some path => do
      let outcome ← launch workers.program name path arguments
      launchStatus name outcome

/-- Opens the files of a named command and lets it do its work. -/
def perform (workers : Workers) (name : String) (command : Command) : Act Int := do
  match ← openRedirects command with
  | some refusal =>
    report s!"minishell: {refusal.message}"
    return failureStatus
  | none => dispatch workers name command.arguments

/-- An action after which the files of both streams are closed and its status is kept. -/
def completing (act : Act Int) : Act Int := do
  let status ← closing act
  remember fun s => { s with status }
  return status

/-- Carries a command out by `workers`, keeps its status and gives it. A command without a
name changes nothing. -/
def executeBy (workers : Workers) (command : Command) : Act Int := do
  match command.name with
  | none => return (← get).session.status
  | some name => completing (perform workers name command)

def execute (command : Command) : Act Int :=
  executeBy .usual command

end Act

end LineShell
