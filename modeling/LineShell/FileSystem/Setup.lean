import LineShell.FileSystem.Edit

/-!
# Setting up a tree of files

`FileSystem.initial` is a machine on which nothing but the devices, the reader of scripts
and an empty working directory exist. `FileSystem.furnish` puts planned files into the
working directory.

Somebody who looks through the tree while the shell rests has to get into it:
`FileSystem.unlock` opens everything that was planned, and `FileSystem.relock` is what is
left afterwards, with the permissions of the plans.
-/

namespace LineShell

/-- A file, directory, link or program that is to be made; paths are seen from the working
directory. -/
inductive Plan
  | directory (path : String) (access : Access)
  | file (path : String) (data : Bytes) (access : Access)
  | link (path target : String)
  | program (path : String) (actions : List Action) (access : Access)

/-- The path of a plan with the permissions that are planned for it. Links have none. -/
def Plan.permission? : Plan → Option (String × Access)
  | .directory path access => some (path, access)
  | .file path _ access => some (path, access)
  | .link _ _ => none
  | .program path _ access => some (path, access)

namespace FileSystem

def workplace : NodeId := 6

/-- The root with the devices, the reader of scripts and an empty working directory of the
given name. Nothing can be made outside the working directory. -/
def initial (name : String) : FileSystem :=
  let fixed : Access := { read := true, write := false, execute := true }
  ⟨#[.directory fixed root "" [("dev", 1), ("bin", 4), (name, workplace)],
    .directory fixed root "dev" [("null", 2), ("full", 3)],
    .device .null,
    .device .full,
    .directory fixed root "bin" [("sh", 5)],
    .file fixed #[] (some .scriptReader),
    .directory fullAccess root name []]⟩

def makeWay (fs : FileSystem) (path : Path) : FileSystem :=
  (fs.makeDirectories workplace path.root path.parts.reverse.tail).1

/-- Carries a plan out, except for the permissions, and gives the node that they are for. -/
def carryOut (fs : FileSystem) : Plan → FileSystem × Option (NodeId × Access)
  | .directory path access =>
    let place := Path.normalize path
    let fs := (fs.makeDirectories workplace place.root place.parts.reverse).1
    (fs, (fs.find workplace path).toOption.map (·, access))
  | .file path data access =>
    let fs := fs.makeWay (Path.normalize path)
    match fs.openToWrite workplace path false with
    | .ok (id, fs) => (fs.put id (.file fileAccess data.toArray none), some (id, access))
    | .error _ => (fs, none)
  | .link path target =>
    let fs := fs.makeWay (Path.normalize path)
    match fs.locate .entry workplace path with
    | .ok (.vacant dir name) => (fs.addIn dir name (.link target), none)
    | _ => (fs, none)
  | .program path actions access =>
    let fs := fs.makeWay (Path.normalize path)
    match fs.openToWrite workplace path false with
    | .ok (id, fs) =>
      (fs.put id (.file fullAccess #[] (some (.actions actions))), some (id, access))
    | .error _ => (fs, none)

/-- Carries plans out in order. Permissions are set when everything is made, so that they do
not stand in the way of a later plan. -/
def furnish (fs : FileSystem) (plans : List Plan) : FileSystem :=
  let made := plans.foldl
    (fun (fs, pending) plan =>
      let (fs, more) := fs.carryOut plan
      (fs, pending ++ more.toList))
    (fs, ([] : List (NodeId × Access)))
  made.2.foldl (fun fs (id, access) => fs.permitNode id access) made.1

/-- Sets permissions that depend on the planned ones, wherever the path of a plan still leads
to something. -/
def permitPlanned (fs : FileSystem) (plans : List Plan) (choose : Access → Access) :
    FileSystem :=
  (plans.filterMap Plan.permission?).foldl
    (fun fs (path, access) => (fs.permit workplace path (choose access)).toOption.getD fs) fs

/-- The tree with everything that was planned open to all uses. -/
def unlock (fs : FileSystem) (plans : List Plan) : FileSystem :=
  fs.permitPlanned plans fun _ => fullAccess

def relock (fs : FileSystem) (plans : List Plan) : FileSystem :=
  fs.permitPlanned plans id

end FileSystem

end LineShell
