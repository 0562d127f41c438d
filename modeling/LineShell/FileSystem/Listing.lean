import LineShell.FileSystem.Walk

/-!
# What a tree holds

`FileSystem.listing` gives every name below a directory with what it names, without
following links, as far as permissions let one see. `changes` gives the names that differ
between two listings. `FileSystem.pathTo` is the path of a directory by the names of the
directories themselves.
-/

namespace LineShell

inductive Entry
  | file (data : Array UInt8)
  | program
  | directory
  | link (target : String)
  | device
deriving DecidableEq, Repr

/-- What a node is in a listing. A file that may not be read is in none. -/
def Node.entry? : Node → Option Entry
  | .file access data program =>
    if access.read then some (if program.isSome then .program else .file data) else none
  | .directory .. => some .directory
  | .link target => some (.link target)
  | .device _ => some .device

/-- The names that a node shows with what they name. Only a directory shows any, and only to
those who may read it and go through it. -/
def Node.shown : Node → List (String × NodeId)
  | .directory access _ _ entries => if access.read && access.execute then entries else []
  | _ => []

namespace FileSystem

/-- The names that a node shows up to `depth` levels below it, each after `above`. -/
def listingFrom (fs : FileSystem) : Nat → String → Node → List (String × Entry)
  | 0, _, _ => []
  | depth + 1, above, node =>
    node.shown.flatMap fun (name, id) =>
      match fs.node? id with
      | some node =>
        node.entry?.toList.map ((above ++ name, ·))
          ++ listingFrom fs depth (above ++ name ++ "/") node
      | none => []

/-- All names below the directory `dir`. There are no more levels than nodes. -/
def listing (fs : FileSystem) (dir : NodeId) : List (String × Entry) :=
  match fs.node? dir with
  | some node => fs.listingFrom fs.next "" node
  | none => []

/-- The names of the directories that lead from the root to `dir`, at most `depth` of them. -/
def namesTo (fs : FileSystem) : Nat → NodeId → List String
  | 0, _ => []
  | depth + 1, dir =>
    if dir = root then []
    else
      match fs.node? dir with
      | some (.directory _ parent name _) => namesTo fs depth parent ++ [name]
      | _ => []

def pathTo (fs : FileSystem) (dir : NodeId) : String :=
  "/" ++ Text.glue '/' (fs.namesTo fs.next dir)

end FileSystem

/-- Two lists without what both of them begin with. -/
def withoutCommon [DecidableEq α] : List α → List α → List α × List α
  | a :: as, b :: bs => if a = b then withoutCommon as bs else (a :: as, b :: bs)
  | as, bs => (as, bs)

/-- The names whose meaning is another one in `after` than in `before`, with nothing for
those that are gone. A listing has a name once, so what both begin with need not be looked
at. -/
def changes (before after : List (String × Entry)) : List (String × Option Entry) :=
  let (before, after) := withoutCommon before after
  (after.filter fun (path, entry) => before.lookup path ≠ some entry).map
      (fun (path, entry) => (path, some entry))
    ++ (before.filter fun (path, _) => (after.lookup path).isNone).map
      (fun (path, _) => (path, none))

end LineShell
