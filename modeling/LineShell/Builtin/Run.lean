import LineShell.Builtin.Basic
import LineShell.Output
import LineShell.ProgramSearch
import LineShell.Text.Numeral

/-!
# What the builtins do

Each builtin is an action that takes the arguments and gives a status. What it says goes to
the streams of the command, errors as single lines to the standard error. `Builtin.run`
chooses the action.
-/

namespace LineShell.Builtin

open Act

/-- `exit`: stops the shell with a status, of which the remainder by 256 is kept. An
argument that is no numeral counts as 2. -/
def runExit (arguments : List String) : Act Int := do
  match arguments with
  | [] => stop 0
  | [argument] =>
    match Text.integer? argument with
    | some n => stop n
    | none =>
      report s!"exit: {argument}: numeric argument required"
      stop 2
  | _ =>
    report "exit: too many arguments"
    return 1
where
  stop (n : Int) : Act Int := do
    let status := n % 256
    remember fun s => { s with exit := some status }
    return status

def runEcho (arguments : List String) : Act Int := do
  printLine .out (" ".intercalate arguments)
  flush .out
  return 0

def runPwd : Act Int := do
  printLine .out (← get).session.cwd
  flush .out
  return 0

/-- A path in which `~` stands for the home directory; nothing if there is no home. Only a
`~` that is the whole first name counts. -/
def expandHome (s : Session) (path : String) : Option String :=
  match path.toList with
  | ['~'] => s.home
  | '~' :: '/' :: rest => s.home.map (· ++ String.ofList ('/' :: rest))
  | _ => some path

/-- Why a directory cannot be made that of the session. -/
def directoryError? (w : World) (path : String) : Option Errno :=
  match w.files.lookup w.here path with
  | .ok (.directory access ..) => if access.execute then none else some .permissionDenied
  | .ok _ => some .notDirectory
  | .error _ => some .noEntry

def runCd (arguments : List String) : Act Int := do
  match arguments with
  | [] => go "~"
  | [target] => go target
  | _ => fail "too many arguments"
where
  fail (reason : String) : Act Int := do
    report s!"cd: {reason}"
    return 1
  go (target : String) : Act Int := do
    let w ← get
    match expandHome w.session target with
    | none => fail "HOME not set"
    | some path =>
      let directory := w.session.resolve path
      match directoryError? w directory with
      | some e => fail s!"{target}: {e.text}"
      | none =>
        note .debug .builtin s!"cd {w.session.cwd} -> {directory}"
        remember fun s => { s with cwd := directory }
        return 0

/-- The flag of `type` that asks for everything of a name. -/
def allFlag : String := "-a"

/-- What a name means outside the shell: the program that is launched under it, or all
programs of the name. -/
def programsOf (everything : Bool) (name : String) : Act (List String) := do
  if everything then return (← get).candidates name
  else return (← findProgram name).toList

/-- The lines about a name: that it is a builtin and which programs it means. If not
everything is asked for, only what a command of that name would do counts. -/
def meanings (everything : Bool) (name : String) : Act (List String) := do
  let builtin := if (ofName? name).isSome then [s!"{name} is a shell builtin"] else []
  if builtin.isEmpty || everything then
    let programs ← programsOf everything name
    return builtin ++ programs.map fun path => s!"{name} is {path}"
  else return builtin

def printLines : List String → Act Unit
  | [] => pure ()
  | line :: lines => do
    printLine .out line
    printLines lines

/-- Says what a name means, and whether it means anything. -/
def describeName (everything : Bool) (name : String) : Act Bool := do
  let lines ← meanings everything name
  printLines lines
  if lines.isEmpty then
    report s!"{name}: not found"
    return false
  else return true

def describeNames (everything : Bool) : List String → Act Bool
  | [] => return true
  | name :: names => do
    let found ← describeName everything name
    let others ← describeNames everything names
    return found && others

def runType (arguments : List String) : Act Int := do
  let names := arguments.dropWhile (· = allFlag)
  if names.isEmpty then
    report "type: usage: type [-a] name [name ...]"
    return 2
  else
    let found ← describeNames (names.length < arguments.length) names
    flush .out
    return if found then 0 else 1

/-- Writes what a file holds, and tells whether it could be read. -/
def showFile (name : String) : Act Bool := do
  let w ← get
  let path := w.session.resolve name
  if holdsNull path then throw .nullByte
  else
    match w.files.read w.here path with
    | some (.ok bytes) =>
      printBytes .out bytes
      return true
    | some (.error e) =>
      report s!"cat: {name}: {e.text}"
      return false
    | none => throw .endless

def showFiles : List String → Act Bool
  | [] => return true
  | name :: names => do
    let complete ← showFile name
    let others ← showFiles names
    return complete && others

def runCat (names : List String) : Act Int := do
  let complete ← showFiles names
  flush .out
  return if complete then 0 else 1

def run (b : Builtin) (arguments : List String) : Act Int :=
  match b with
  | .exit => runExit arguments
  | .echo => runEcho arguments
  | .pwd => runPwd
  | .cd => runCd arguments
  | .type => runType arguments
  | .cat => runCat arguments

end LineShell.Builtin
