import LineShell.Program
import LineShell.Text.Utf8

/-!
# The tree of files

A file system is an array of nodes, and a node is known by its position in it. Nodes are
only ever added and replaced, so a position goes on meaning the same file, also after its
last name is gone; an open file can rely on that.

The main lemmas say what a changed file system holds at a position: `node?_put_self`,
`node?_put_of_ne`, `node?_add_of_lt` and `node?_add_self`.
-/

namespace LineShell

abbrev NodeId := Nat

/-- The devices: one swallows what is written and the other refuses it. -/
inductive Device
  | null
  | full
deriving DecidableEq, Repr

inductive Node
  /-- A regular file; `program` says what it does when launched, if it is no plain data. -/
  | file (access : Access) (data : Array UInt8) (program : Option Program)
  /-- A directory with its own name, the directory that it is in and the names in it. -/
  | directory (access : Access) (parent : NodeId) (name : String)
      (entries : List (String × NodeId))
  | link (target : String)
  | device (device : Device)
deriving DecidableEq, Repr

/-- All files, reachable or not. Node `root` is where absolute paths start. -/
structure FileSystem where
  nodes : Array Node
deriving DecidableEq, Repr

namespace FileSystem

def root : NodeId := 0

def node? (fs : FileSystem) (id : NodeId) : Option Node :=
  fs.nodes[id]?

def put (fs : FileSystem) (id : NodeId) (node : Node) : FileSystem :=
  ⟨fs.nodes.setIfInBounds id node⟩

def next (fs : FileSystem) : NodeId :=
  fs.nodes.size

/-- The file system with a node more, at position `fs.next`. -/
def add (fs : FileSystem) (node : Node) : FileSystem :=
  ⟨fs.nodes.push node⟩

@[simp] theorem node?_put_self {fs : FileSystem} {id : NodeId} (node : Node)
    (h : id < fs.next) : (fs.put id node).node? id = some node :=
  Array.getElem?_setIfInBounds_self_of_lt h

@[simp] theorem node?_put_of_ne {fs : FileSystem} {id other : NodeId} (node : Node)
    (h : other ≠ id) : (fs.put id node).node? other = fs.node? other :=
  Array.getElem?_setIfInBounds_ne h.symm

theorem node?_add_of_lt {fs : FileSystem} {id : NodeId} (node : Node) (h : id < fs.next) :
    (fs.add node).node? id = fs.node? id :=
  (Array.getElem?_push_lt h).trans (Array.getElem?_eq_getElem h).symm

@[simp] theorem node?_add_self (fs : FileSystem) (node : Node) :
    (fs.add node).node? fs.next = some node := by
  simp [add, node?, next]

/-- The node added under a name in the directory `dir`. -/
def addIn (fs : FileSystem) (dir : NodeId) (name : String) (node : Node) : FileSystem :=
  match fs.node? dir with
  | some (.directory access parent own entries) =>
    (fs.add node).put dir (.directory access parent own (entries ++ [(name, fs.next)]))
  | _ => fs

end FileSystem

end LineShell
