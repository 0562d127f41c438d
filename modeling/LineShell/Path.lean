import LineShell.Text.Pieces

/-!
# Paths as text

A path is a text of names with slashes between them. `join` lets one path start where
another ends, and `normalize` brings a path into its canonical form, a `Path`, without
looking at any file: empty names and `.` are dropped, and `..` takes back the name before
it. A canonical path is written by `Path.toString`.

A path that starts with exactly two slashes keeps both of them; any other number of slashes
in front counts as one.
-/

namespace LineShell

inductive Root
  | relative
  | slash
  | doubleSlash
deriving DecidableEq, Repr

def Root.toString : Root → String
  | .relative => ""
  | .slash => "/"
  | .doubleSlash => "//"

/-- A path in canonical form: a root and the names below it, of which only those at the
start of a relative path are `..`. -/
structure Path where
  root : Root
  parts : List String
deriving DecidableEq, Repr

namespace Path

def isAbsolute (p : String) : Bool :=
  p.toList.head? = some '/'

/-- Whether a path ends in a slash and so can only name a directory. -/
def endsInSlash (p : String) : Bool :=
  p.toList.getLast? = some '/'

def join (start p : String) : String :=
  if isAbsolute p then p
  else if start = "" ∨ endsInSlash start then start ++ p
  else start ++ "/" ++ p

/-- The root that the slashes in front of a path mean. -/
def rootOf (p : String) : Root :=
  match p.toList with
  | '/' :: '/' :: '/' :: _ => .slash
  | '/' :: '/' :: _ => .doubleSlash
  | '/' :: _ => .slash
  | _ => .relative

/-- One more name below the names of `above`, of which the nearest comes first. `..` takes
the nearest name back; above a root there is nothing to take back, and a relative path keeps
a `..` that has no name before it. -/
def push (root : Root) (above : List String) (name : String) : List String :=
  if name = "" ∨ name = "." then above
  else if name = ".." then
    match above with
    | [] => if root = .relative then [".."] else []
    | nearest :: others => if nearest = ".." then ".." :: above else others
  else name :: above

def normalize (p : String) : Path :=
  let root := rootOf p
  { root, parts := ((Text.pieces '/' p).foldl (push root) []).reverse }

/-- The written form; the relative path without names is `.`. -/
def toString (p : Path) : String :=
  if p.root = .relative ∧ p.parts = [] then "."
  else p.root.toString ++ Text.glue '/' p.parts

/-- The canonical form of `p` as seen from the directory `start`. -/
def resolve (start p : String) : Path :=
  normalize (join start p)

end Path

end LineShell
