import LineShell.Fault
import LineShell.FileSystem.Walk

/-!
# Reading and changing files

The operations by which files are read, written, made and removed. Each checks what an
operating system checks: search permission on the way is the business of the walk, and here
the directory has to be writable where a name is added or taken away, and the file readable
or writable.

`makeDirectories` is the one operation that can do a part of its work before it fails; it
returns the file system as it leaves it beside the outcome.
-/

namespace LineShell.FileSystem

def fileAccess : Access := { read := true, write := true, execute := false }

def fullAccess : Access := { read := true, write := true, execute := true }

/-- Whether names may be added to and taken from the directory `dir`. -/
def isWritable (fs : FileSystem) (dir : NodeId) : Bool :=
  match fs.node? dir with
  | some (.directory access ..) => access.write
  | _ => false

/-! ## Reading -/

/-- The bytes of what a path names, or the reason why there are none to be had. Reading the
device `full` comes to neither: there is always more to be read. -/
def read (fs : FileSystem) (here : NodeId) (path : String) : Option (Except Errno Bytes) :=
  match fs.lookup here path with
  | .ok (.file access data _) =>
    some (if access.read then .ok data.toList else .error .permissionDenied)
  | .ok (.directory access ..) =>
    some (.error (if access.read then .isDirectory else .permissionDenied))
  | .ok (.device .null) => some (.ok [])
  | .ok (.device .full) => none
  | .ok (.link _) => some (.error .tooManyLinks)
  | .error e => some (.error e)

theorem read_eq_none_iff {fs : FileSystem} {here : NodeId} {path : String} :
    fs.read here path = none ↔ fs.lookup here path = .ok (.device .full) := by
  unfold read
  split <;> simp_all

/-! ## Writing -/

/-- `data` with `bytes` in place of what stands from `offset` on. A gap before `offset` is
filled with zeros. -/
def overlay (data : Array UInt8) (offset : Nat) (bytes : Bytes) : Array UInt8 :=
  data.extract 0 offset ++ Array.replicate (offset - data.size) 0 ++ bytes
    ++ data.extract (offset + bytes.length) data.size

/-- At the end of `data` nothing is replaced and no gap is left. -/
theorem overlay_size (data : Array UInt8) (bytes : Bytes) :
    overlay data data.size bytes = data ++ bytes := by
  simp [overlay]

/-- Opens a file for writing, from its end (`append`) or after throwing away what it holds.
A file that is missing is made. -/
def openToWrite (fs : FileSystem) (here : NodeId) (path : String) (append : Bool) :
    Except Fault (NodeId × FileSystem) :=
  if holdsNull path then .error .nullByte
  else
    match fs.locate .write here path with
    | .error e => .error (.refused e)
    | .ok (.vacant dir name) =>
      if fs.isWritable dir then .ok (fs.next, fs.addIn dir name (.file fileAccess #[] none))
      else .error (.refused .permissionDenied)
    | .ok (.node id) =>
      match fs.node? id with
      | some (.file access _ _) =>
        if !access.write then .error (.refused .permissionDenied)
        else if append then .ok (id, fs)
        else .ok (id, fs.put id (.file access #[] none))
      | some (.device _) => .ok (id, fs)
      | some (.directory ..) => .error (.refused .isDirectory)
      | _ => .error (.refused .noEntry)

/-- Writes bytes to an open file, at its end (`append`) or at `offset`, and gives the offset
after them. -/
def writeTo (fs : FileSystem) (id : NodeId) (append : Bool) (offset : Nat) (bytes : Bytes) :
    Except Errno (Nat × FileSystem) :=
  match fs.node? id with
  | some (.file access data program) =>
    if bytes = [] then .ok (offset, fs)
    else
      let start := if append then data.size else offset
      .ok (start + bytes.length, fs.put id (.file access (overlay data start bytes) program))
  | some (.device .full) => if bytes = [] then .ok (offset, fs) else .error .noSpace
  | _ => .ok (offset, fs)

/-! ## Making and removing -/

def makeDirectory (fs : FileSystem) (here : NodeId) (path : String) : Except Fault FileSystem :=
  if holdsNull path then .error .nullByte
  else
    match fs.locate .entry here path with
    | .error e => .error (.refused e)
    | .ok (.node _) => .error (.refused .exists)
    | .ok (.vacant dir name) =>
      if fs.isWritable dir then .ok (fs.addIn dir name (.directory fullAccess dir name []))
      else .error (.refused .permissionDenied)

/-- How many directories may be missing on the way to a file, the last one included. Each is made
by a call of its own, from which the call for the directory before it is made, and no more than
1000 calls may be open. Of these 9 are open where a command opens a redirection, and 2 are left
for looking at what is above the first directory. -/
def maxMissing : Nat := 989

/-- Makes the directory with the given names, nearest first, below a root, and before it the
directories on the way to it that are missing. A directory that is there already is no
failure; that a name on the way exists is left for the next directory to stumble over. If
there are more than `room` directories to be made, none is. -/
def makeDirectoriesWithin (fs : FileSystem) (here : NodeId) (root : Root) :
    Nat → List String → FileSystem × Except Fault Unit
  | _, [] => (fs, .ok ())
  | 0, _ :: _ => (fs, .error .tooDeep)
  | room + 1, name :: above =>
    let path := Path.toString ⟨root, (name :: above).reverse⟩
    let before : FileSystem × Except Fault Unit :=
      if above = [] ∨ fs.has here (Path.toString ⟨root, above.reverse⟩) then (fs, .ok ())
      else
        match makeDirectoriesWithin fs here root room above with
        | (fs, .error (.refused .exists)) => (fs, .ok ())
        | outcome => outcome
    match before with
    | (fs, .error fault) => (fs, .error fault)
    | (fs, .ok ()) =>
      match fs.makeDirectory here path with
      | .ok fs => (fs, .ok ())
      | .error fault => (fs, if fs.hasDirectory here path then .ok () else .error fault)

def makeDirectories (fs : FileSystem) (here : NodeId) (root : Root) (names : List String) :
    FileSystem × Except Fault Unit :=
  fs.makeDirectoriesWithin here root maxMissing names

def holder? (fs : FileSystem) (id : NodeId) : Option NodeId :=
  fs.nodes.toList.findIdx? fun
    | .directory _ _ _ entries => entries.any (·.2 = id)
    | _ => false

/-- Takes the name of a node out of its directory. What is below the node cannot be reached
any more, but stays for those who have it open. -/
def remove (fs : FileSystem) (here : NodeId) (path : String) : Except Errno FileSystem :=
  match fs.locate .entry here path with
  | .error e => .error e
  | .ok (.vacant _ _) => .error .noEntry
  | .ok (.node id) =>
    match fs.holder? id with
    | none => .error .permissionDenied
    | some dir =>
      match fs.node? dir with
      | some (.directory access parent name entries) =>
        if access.write then
          .ok (fs.put dir (.directory access parent name (entries.filter (·.2 ≠ id))))
        else .error .permissionDenied
      | _ => .error .notDirectory

def permitNode (fs : FileSystem) (id : NodeId) (access : Access) : FileSystem :=
  match fs.node? id with
  | some (.file _ data program) => fs.put id (.file access data program)
  | some (.directory _ parent name entries) => fs.put id (.directory access parent name entries)
  | _ => fs

def permit (fs : FileSystem) (here : NodeId) (path : String) (access : Access) :
    Except Errno FileSystem :=
  match fs.find here path with
  | .ok id => .ok (fs.permitNode id access)
  | .error e => .error e

end LineShell.FileSystem
