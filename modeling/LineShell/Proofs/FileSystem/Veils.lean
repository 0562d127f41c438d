import LineShell.Builtin.Run
import LineShell.Child.Image
import LineShell.FileSystem.Listing

/-!
# Trees that differ in what some files hold

`FileSystem.Veils held fs gs` relates two trees with the same nodes, of which `gs` holds the
bytes `held id` in each regular file `id` for which there are any, whatever `fs` holds there.

Nothing but the reading of such a file tells the two trees apart. Every question of the shell
therefore has the same answer in both (`Veils.walk_eq` and what follows from it), and a question
about what a file holds has it for every other file (`Veils.read_eq`, `Veils.image_eq`).
-/

namespace LineShell.FileSystem

/-- The trees are the same but for the files of which `held` says what they hold in `gs`. -/
structure Veils (held : NodeId → Option Bytes) (fs gs : FileSystem) : Prop where
  next : gs.next = fs.next
  apart : ∀ {id}, held id = none → gs.node? id = fs.node? id
  veiled : ∀ {id bytes}, held id = some bytes → ∃ access data program program',
    fs.node? id = some (.file access data program) ∧
      gs.node? id = some (.file access bytes.toArray program')

namespace Veils

variable {held : NodeId → Option Bytes} {fs gs : FileSystem} (veils : Veils held fs gs)
include veils

theorem node_cases (id : NodeId) : gs.node? id = fs.node? id ∨
    ∃ access data program data' program', fs.node? id = some (.file access data program) ∧
      gs.node? id = some (.file access data' program') := by
  cases holds : held id with
  | none => exact .inl (veils.apart holds)
  | some bytes =>
    obtain ⟨access, data, program, program', before, after⟩ := veils.veiled holds
    exact .inr ⟨access, data, program, _, program', before, after⟩

/-! ## Walks -/

/-- On a walk a node counts only as a directory or as a link. -/
theorem walkWith_eq (purpose : Purpose)
    (jump : NodeId → List String → Except Errno Landing) (here : NodeId) (names : List String) :
    gs.walkWith purpose jump here names = fs.walkWith purpose jump here names := by
  induction names generalizing here with
  | nil => rfl
  | cons name rest ih =>
    unfold walkWith
    rcases veils.node_cases here with same | ⟨_, _, _, _, _, before, after⟩
    · rw [same]
      cases fs.node? here with
      | none => rfl
      | some node =>
        cases node with
        | directory access parent own entries =>
          simp only [ih]
          cases entries.lookup name with
          | none => rfl
          | some id =>
            -- of the node that the name is for it only matters whether it is a link
            rcases veils.node_cases id with same | ⟨_, _, _, _, _, before, after⟩
            · simp only [same]
            · simp only [before, after]
        | file => rfl
        | link => rfl
        | device => rfl
    · rw [before, after]

theorem walk_eq (purpose : Purpose) (links : Nat) :
    gs.walk purpose links = fs.walk purpose links := by
  -- where a link leads to is the same walk with one link less
  induction links with
  | zero =>
    funext here names
    exact veils.walkWith_eq purpose _ here names
  | succ links ih =>
    funext here names
    unfold walk
    rw [ih]
    exact veils.walkWith_eq purpose _ here names

theorem locate_eq (purpose : Purpose) (here : NodeId) (path : String) :
    gs.locate purpose here path = fs.locate purpose here path := by
  unfold locate
  rw [veils.walk_eq]

theorem find_eq (here : NodeId) (path : String) : gs.find here path = fs.find here path := by
  unfold find
  rw [veils.locate_eq]

/-! ## Questions -/

theorem lookup_cases (here : NodeId) (path : String) :
    gs.lookup here path = fs.lookup here path ∨
    ∃ access data program data' program', fs.lookup here path = .ok (.file access data program) ∧
      gs.lookup here path = .ok (.file access data' program') := by
  unfold lookup
  rw [veils.find_eq]
  cases fs.find here path with
  | error e => exact .inl rfl
  | ok id =>
    dsimp only
    rcases veils.node_cases id with same | ⟨access, data, program, data', program', before, after⟩
    · exact .inl (by rw [same])
    · exact .inr ⟨access, data, program, data', program', by rw [before], by rw [after]⟩

theorem hasExecutable_eq (here : NodeId) (path : String) :
    gs.hasExecutable here path = fs.hasExecutable here path := by
  unfold hasExecutable
  rcases veils.lookup_cases here path with same | ⟨_, _, _, _, _, before, after⟩
  · rw [same]
  · rw [before, after]

theorem enter_eq (here : NodeId) (path : String) : gs.enter here path = fs.enter here path := by
  unfold enter
  rw [veils.find_eq]
  cases fs.find here path with
  | error e => rfl
  | ok id =>
    dsimp only
    rcases veils.node_cases id with same | ⟨_, _, _, _, _, before, after⟩
    · rw [same]
    · rw [before, after]

theorem isWritable_eq (dir : NodeId) : gs.isWritable dir = fs.isWritable dir := by
  unfold isWritable
  rcases veils.node_cases dir with same | ⟨_, _, _, _, _, before, after⟩
  · rw [same]
  · rw [before, after]

theorem namesTo_eq (depth : Nat) (dir : NodeId) : gs.namesTo depth dir = fs.namesTo depth dir := by
  induction depth generalizing dir with
  | zero => rfl
  | succ depth ih =>
    unfold namesTo
    rcases veils.node_cases dir with same | ⟨_, _, _, _, _, before, after⟩
    · simp only [same, ih]
    · simp only [before, after]

theorem pathTo_eq (dir : NodeId) : gs.pathTo dir = fs.pathTo dir := by
  unfold pathTo
  rw [veils.next, veils.namesTo_eq]

/-- The first node with a property that does not depend on what files hold. -/
theorem findIdx?_eq {holds : Node → Bool} (blind : ∀ access data program data' program',
      holds (.file access data program) = holds (.file access data' program')) :
    gs.nodes.toList.findIdx? holds = fs.nodes.toList.findIdx? holds := by
  -- the property is the same at every position of the two arrays
  have same : gs.nodes.toList.map holds = fs.nodes.toList.map holds := by
    apply List.ext_getElem?
    intro i
    have nodes := veils.node_cases i
    simp only [node?] at nodes
    simp only [List.getElem?_map, Array.getElem?_toList]
    rcases nodes with same | ⟨_, _, _, _, _, before, after⟩
    · rw [same]
    · rw [before, after]
      exact congrArg some (blind _ _ _ _ _)
  have found := congrArg (List.findIdx? id) same
  simpa [List.findIdx?_map] using found

theorem holder?_eq (child : NodeId) : gs.holder? child = fs.holder? child :=
  veils.findIdx?_eq fun _ _ _ _ _ => rfl

/-! ## What files hold -/

theorem read_eq {here : NodeId} {path : String}
    (apart : ∀ id, fs.find here path = .ok id → held id = none) :
    gs.read here path = fs.read here path := by
  unfold read lookup
  rw [veils.find_eq]
  cases found : fs.find here path with
  | error e => rfl
  | ok id => simp only [veils.apart (apart id found)]

end Veils

/-! ## Launches -/

/-- The files that are opened where a program is looked for behind a path: the file itself and,
if that is a script, those that it is to be read by. -/
def launchedWithin (fs : FileSystem) (here : NodeId) : Nat → String → List NodeId
  | depth, path =>
    match fs.find here path with
    | .error _ => []
    | .ok id =>
      id ::
        match depth with
        | 0 => []
        | depth + 1 =>
          match fs.openToLaunch [] here path with
          | .ok (data, none) =>
            match Image.interpreter? data with
            | some (file, _) => fs.launchedWithin here depth (Utf8.decode file)
            | none => []
          | _ => []

theorem mem_launchedWithin {fs : FileSystem} {here id : NodeId} {path : String} (depth : Nat)
    (found : fs.find here path = .ok id) : id ∈ fs.launchedWithin here depth path := by
  unfold launchedWithin
  simp [found]

/-- The files that a launch of a path opens. -/
def launched (fs : FileSystem) (here : NodeId) (path : String) : List NodeId :=
  fs.launchedWithin here Image.maxDepth path

namespace Veils

variable {held : NodeId → Option Bytes} {fs gs : FileSystem} (veils : Veils held fs gs)
  {busy : List NodeId} (open_ : ∀ id ∈ busy, held id ≠ none)
include veils open_

/-- A file that is open for writing is none of those that are launched. -/
theorem openToLaunch_eq {here : NodeId} {path : String}
    (apart : ∀ id, fs.find here path = .ok id → held id = none) :
    gs.openToLaunch busy here path = fs.openToLaunch [] here path := by
  unfold openToLaunch
  rw [veils.find_eq]
  cases found : fs.find here path with
  | error e => rfl
  | ok id =>
    have free : id ∉ busy := fun listed => open_ id listed (apart id found)
    simp only [veils.apart (apart id found), free, List.not_mem_nil]

theorem imageWithin_eq {here : NodeId} {depth : Nat} {path : String} {arguments : List String}
    (apart : ∀ id ∈ fs.launchedWithin here depth path, held id = none) :
    gs.imageWithin busy here depth path arguments =
      fs.imageWithin [] here depth path arguments := by
  induction depth generalizing path arguments with
  | zero =>
    have first : ∀ id, fs.find here path = .ok id → held id = none :=
      fun id found => apart id (mem_launchedWithin _ found)
    simp only [imageWithin, veils.openToLaunch_eq open_ first]
  | succ depth ih =>
    have first : ∀ id, fs.find here path = .ok id → held id = none :=
      fun id found => apart id (mem_launchedWithin _ found)
    simp only [imageWithin, veils.openToLaunch_eq open_ first]
    cases opened : fs.openToLaunch [] here path with
    | error e => rfl
    | ok contents =>
      obtain ⟨data, program⟩ := contents
      cases program with
      | some program => rfl
      | none =>
        dsimp only
        cases named : Image.interpreter? data with
        | none => rfl
        | some line =>
          -- the interpreter of a script is looked for in the same way, and its files are listed
          obtain ⟨file, argument⟩ := line
          apply ih
          intro id listed
          apply apart id
          cases found : fs.find here path with
          | error e => simp [openToLaunch, found] at opened
          | ok id => simp [launchedWithin, found, opened, named, listed]

theorem image_eq {here : NodeId} {path : String} {arguments : List String}
    {env : List (String × String)} (apart : ∀ id ∈ fs.launched here path, held id = none) :
    gs.image busy here path arguments env = fs.image [] here path arguments env := by
  have first : ∀ id, fs.find here path = .ok id → held id = none :=
    fun id found => apart id (mem_launchedWithin _ found)
  unfold image
  rw [veils.openToLaunch_eq open_ first, veils.imageWithin_eq open_ apart]

end Veils

end LineShell.FileSystem
