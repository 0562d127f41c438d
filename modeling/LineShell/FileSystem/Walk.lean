import LineShell.FileSystem.Basic
import LineShell.FileSystem.Errno
import LineShell.Path

/-!
# Walking a path

`FileSystem.locate` follows a path name by name, as an operating system does: every
directory on the way has to be one that may be gone through, `..` goes to the directory that
a directory is in, and a symbolic link is replaced by the names of its target. The walk ends
at a node or at a place in a directory where a node could be put (`Landing`).

The walk is structural in the names; a link starts a new walk, and there are at most
`maxLinks` of them (`walk`).
-/

namespace LineShell

/-- Where a walk ends. -/
inductive Landing
  | node (id : NodeId)
  /-- At a name that the directory does not have. -/
  | vacant (dir : NodeId) (name : String)
deriving DecidableEq, Repr

inductive Purpose
  | use
  /-- To write to the file that the path names, which may be created. Slashes after the last
  name are refused. -/
  | write
  /-- To make or remove the last name itself, which is then not followed if it is a link. -/
  | entry
deriving DecidableEq, Repr

namespace FileSystem

def maxName : Nat := 255

def maxPath : Nat := 4095

def maxLinks : Nat := 40

/-- The node where the names of a path start, as seen from the directory `here`. -/
def startOf (here : NodeId) (path : String) : NodeId :=
  if Path.isAbsolute path then root else here

/-- Follows names from the node `here`. An empty name asks for nothing but a directory, so
slashes in front, in a row and at the end need no rules of their own. `jump` goes on where a
link leads. -/
def walkWith (fs : FileSystem) (purpose : Purpose)
    (jump : NodeId → List String → Except Errno Landing) :
    NodeId → List String → Except Errno Landing
  | here, [] => .ok (.node here)
  | here, name :: rest =>
    match fs.node? here with
    | some (.directory access parent _ entries) =>
      if name = "" then walkWith fs purpose jump here rest
      else if !access.execute then .error .permissionDenied
      else if name = "." then walkWith fs purpose jump here rest
      else if name = ".." then walkWith fs purpose jump parent rest
      else if purpose = .write ∧ rest ≠ [] ∧ rest.all (· = "") then .error .isDirectory
      else if maxName < name.utf8ByteSize then .error .nameTooLong
      else
        match entries.lookup name with
        | none => if rest = [] then .ok (.vacant here name) else .error .noEntry
        | some id =>
          match fs.node? id with
          | some (.link target) =>
            if rest = [] ∧ purpose = .entry then .ok (.node id)
            else jump (startOf here target) (Text.pieces '/' target ++ rest)
          | _ => walkWith fs purpose jump id rest
    | _ => .error .notDirectory

/-- Follows names and up to `links` links. -/
def walk (fs : FileSystem) (purpose : Purpose) (links : Nat) :
    NodeId → List String → Except Errno Landing :=
  match links with
  | 0 => walkWith fs purpose fun _ _ => .error .tooManyLinks
  | links + 1 => walkWith fs purpose (walk fs purpose links)

/-- Follows a path; relative paths start at the directory `here`. -/
def locate (fs : FileSystem) (purpose : Purpose) (here : NodeId) (path : String) :
    Except Errno Landing :=
  if path = "" then .error .noEntry
  else if maxPath < path.utf8ByteSize then .error .nameTooLong
  else fs.walk purpose maxLinks (startOf here path) (Text.pieces '/' path)

def find (fs : FileSystem) (here : NodeId) (path : String) : Except Errno NodeId :=
  match fs.locate .use here path with
  | .ok (.node id) => .ok id
  | .ok (.vacant _ _) => .error .noEntry
  | .error e => .error e

def lookup (fs : FileSystem) (here : NodeId) (path : String) : Except Errno Node :=
  match fs.find here path with
  | .ok id =>
    match fs.node? id with
    | some node => .ok node
    | none => .error .noEntry
  | .error e => .error e

/-! ## Questions about a path -/

def has (fs : FileSystem) (here : NodeId) (path : String) : Bool :=
  (fs.lookup here path).isOk

def hasDirectory (fs : FileSystem) (here : NodeId) (path : String) : Bool :=
  match fs.lookup here path with
  | .ok (.directory ..) => true
  | _ => false

/-- Whether a path leads to a regular file that may be launched. -/
def hasExecutable (fs : FileSystem) (here : NodeId) (path : String) : Bool :=
  match fs.lookup here path with
  | .ok (.file access _ _) => access.execute
  | _ => false

/-- The directory that a path leads to, if one may work in it. -/
def enter (fs : FileSystem) (here : NodeId) (path : String) : Except Errno NodeId :=
  match fs.find here path with
  | .ok id =>
    match fs.node? id with
    | some (.directory access ..) =>
      if access.execute then .ok id else .error .permissionDenied
    | _ => .error .notDirectory
  | .error e => .error e

end FileSystem

end LineShell
