import LineShell.Proofs.FileSystem.Resolution
import LineShell.Proofs.OneRun.Commands
import LineShell.Proofs.Redirection.Opening

/-!
# The directory of the session

A child runs in the directory of the session and sees its paths from there, while the shell itself
resolves the path and follows the result from wherever it runs. Both find the same file under one
path (`find_resolve`), as far as canonical paths lead to where paths lead, and so the shell reads,
enters and opens what a child would read, enter and open (`ActsAlike`).
-/

namespace LineShell

namespace FileSystem

variable {fs : FileSystem} {here directory id : NodeId} {links : Nat} {names : List String}
  {path p cwd : String}

/-! ## What is found is there -/

theorem step_lt_next (tree : fs.IsTree) {name : String} (h : fs.step here name = .ok (.node id)) :
    id < fs.next := by
  obtain ⟨access, parent, own, entries, found⟩ := exists_directory_of_step h
  by_cases stays : Path.stays name
  · cases step_of_stays stays h
    exact lt_next_of_node? found
  by_cases up : name = ".."
  · subst up
    have inside : fs.IsIn here parent := ⟨access, own, entries, found⟩
    simp only [step, found] at h
    split at h
    · contradiction
    split at h
    · cases h
    · cases h
      exact tree.homed inside
  · have named : ¬ IsDots name := by
      rintro (same | same | same)
      · exact stays (decide_eq_true (.inl same))
      · exact stays (decide_eq_true (.inr same))
      · exact up same
    exact tree.named (names_of_step named h)

theorem walkWith_lt_next (tree : fs.IsTree) {jump : NodeId → List String → Except Errno Landing}
    (jumps : ∀ start names, start < fs.next → jump start names = .ok (.node id) → id < fs.next)
    (start : here < fs.next) (h : fs.walkWith .use jump here names = .ok (.node id)) :
    id < fs.next := by
  induction names generalizing here with
  | nil =>
    cases h
    exact start
  | cons name rest ih =>
    rcases walkWith_use_cons_cases h with ⟨next, stepped, onward⟩ | ⟨link, target, _, followed⟩
    · exact ih (step_lt_next tree stepped) onward
    · have start' : startOf here target < fs.next := by
        unfold startOf
        split
        · exact Nat.lt_of_le_of_lt (Nat.zero_le here) start
        · exact start
      exact jumps _ _ start' followed

theorem walk_lt_next (tree : fs.IsTree) (start : here < fs.next)
    (h : fs.walk .use links here names = .ok (.node id)) : id < fs.next := by
  induction links generalizing here names with
  | zero => exact walkWith_lt_next tree (fun _ _ _ found => by cases found) start h
  | succ links ih => exact walkWith_lt_next tree (fun _ _ start found => ih start found) start h

/-- In a tree a path leads to a node that there is. -/
theorem exists_node_of_find (tree : fs.IsTree) (found : fs.find here path = .ok id) :
    ∃ node, fs.node? id = some node := by
  have located := locate_of_find found
  obtain ⟨_, _, walks⟩ := locate_of_ok located
  rw [walks] at located
  obtain ⟨access, parent, own, entries, start⟩ :=
    exists_directory_of_walk (Text.pieces_ne_nil '/' path) located
  have known := walk_lt_next tree (lt_next_of_node? start) located
  exact ⟨fs.nodes[id], Array.getElem?_eq_getElem known⟩

/-- What a path leads to that ends in a slash is a directory. -/
theorem exists_directory_of_endsInSlash (slash : Path.endsInSlash path)
    (found : fs.find here path = .ok id) :
    ∃ access parent own entries, fs.node? id = some (.directory access parent own entries) := by
  have located := locate_of_find found
  obtain ⟨_, _, walks⟩ := locate_of_ok located
  obtain ⟨front, _, cut⟩ := Path.pieces_of_endsInSlash slash
  rw [walks, cut] at located
  obtain ⟨mid, _, links', _, second⟩ := walk_append (by simp) located
  have same : id = mid := Landing.node.inj (walk_of_onlySlashes (by simp [OnlySlashes]) second)
  rw [same]
  exact exists_directory_of_walk (by simp) second

/-! ## Opening what is there -/

/-- What opening a node for writing comes to. -/
def openNode (fs : FileSystem) (id : NodeId) (append : Bool) : Except Fault (NodeId × FileSystem) :=
  match fs.node? id with
  | some (.file access _ _) =>
    if access.write then .ok (id, fs.prepared id append) else .error (.refused .permissionDenied)
  | some (.device _) => .ok (id, fs)
  | some (.directory ..) => .error (.refused .isDirectory)
  | _ => .error (.refused .noEntry)

/-- A name that is followed by slashes only is refused where it is to be written to, if nothing on
the way to it was. -/
theorem walkWith_write_of_onlySlashes {jump jump' : NodeId → List String → Except Errno Landing}
    {name : String} {rest : List String} (slashes : OnlySlashes rest) (named : ¬ IsDots name)
    (h : fs.walkWith .use jump here (name :: rest) = .ok (.node id)) :
    fs.walkWith .write jump' here (name :: rest) = .error .isDirectory := by
  have stepped : ∃ next, fs.step here name = .ok next := by
    rcases walkWith_use_cons_cases h with ⟨_, stepped, _⟩ | ⟨_, _, stepped, _⟩
    · exact ⟨_, stepped⟩
    · exact ⟨_, stepped⟩
  obtain ⟨next, stepped⟩ := stepped
  obtain ⟨access, parent, own, entries, found⟩ := exists_directory_of_step stepped
  simp only [IsDots, not_or] at named
  -- the directory may be gone through, so the slashes are what is refused
  have open_ : (!access.execute) = false := by
    simp only [step, found, if_neg named.1] at stepped
    split at stepped
    · cases stepped
    · rename_i blocked
      simpa using blocked
  have refused : Purpose.write = .write ∧ rest ≠ [] ∧ (rest.all (· = "")) = true := ⟨rfl, slashes⟩
  rw [walkWith, found]
  dsimp only
  rw [if_neg named.1, open_, if_neg Bool.false_ne_true, if_neg named.2.1, if_neg named.2.2,
    if_pos refused]

theorem walkWith_write_cases {jump jump' : NodeId → List String → Except Errno Landing}
    (jumps : ∀ start names, jump start names = .ok (.node id) →
      jump' start names = .ok (.node id) ∨ jump' start names = .error .isDirectory)
    (h : fs.walkWith .use jump here names = .ok (.node id)) :
    fs.walkWith .write jump' here names = .ok (.node id) ∨
      fs.walkWith .write jump' here names = .error .isDirectory := by
  induction names generalizing here with
  | nil => exact .inl h
  | cons name rest ih =>
    by_cases refused : OnlySlashes rest ∧ ¬ IsDots name
    · exact .inr (walkWith_write_of_onlySlashes refused.1 refused.2 h)
    · have open_ : Purpose.write = .write ∧ OnlySlashes rest → IsDots name := by
        intro slashes
        by_contra named
        exact refused ⟨slashes.2, named⟩
      rw [walkWith_cons open_]
      rcases walkWith_use_cons_cases h with ⟨next, stepped, onward⟩ | ⟨link, target, stepped, onward⟩
      · rw [stepped]
        exact ih onward
      · rw [stepped]
        simpa using jumps _ _ onward

theorem walk_write_cases (h : fs.walk .use links here names = .ok (.node id)) :
    fs.walk .write links here names = .ok (.node id) ∨
      fs.walk .write links here names = .error .isDirectory := by
  induction links generalizing here names with
  | zero => exact walkWith_write_cases (fun _ _ found => by cases found) h
  | succ links ih => exact walkWith_write_cases (fun _ _ found => ih found) h

/-- To open what a path leads to is to open the node. -/
theorem openToWrite_of_find (found : fs.find here path = .ok id) (clean : ¬ holdsNull path)
    (append : Bool) : fs.openToWrite here path append = fs.openNode id append := by
  have located := locate_of_find found
  obtain ⟨_, _, walks⟩ := locate_of_ok located
  rw [walks] at located
  unfold openToWrite openNode
  rw [if_neg clean, walks]
  by_cases directory : ∃ access parent own entries,
      fs.node? id = some (.directory access parent own entries)
  · obtain ⟨access, parent, own, entries, there⟩ := directory
    rcases walk_write_cases located with same | refused
    · simp only [same, there]
    · simp only [refused, there]
  · have file : ∀ access parent own entries,
        fs.node? id ≠ some (.directory access parent own entries) :=
      fun access parent own entries there => directory ⟨access, parent, own, entries, there⟩
    rw [walk_write_of_walk_use file located]
    dsimp only
    cases there : fs.node? id with
    | none => rfl
    | some node =>
      cases node with
      | file access data program =>
        cases writable : access.write <;> cases append <;> simp [writable, prepared, there]
      | directory access parent own entries => exact absurd there (file _ _ _ _)
      | link target => rfl
      | device device => rfl

/-! ## What a child sees -/

theorem find_of_enter (entered : fs.enter here path = .ok id) : fs.find here path = .ok id := by
  unfold enter at entered
  cases found : fs.find here path with
  | error e => simp [found] at entered
  | ok other =>
    rw [found] at entered
    dsimp only at entered
    split at entered
    · split at entered
      · rw [Except.ok.inj entered]
      · cases entered
    · cases entered

/-- A path leads to the same from a directory as it does joined to the path of the directory. -/
theorem find_of_find_join (absolute : Path.isAbsolute cwd) (nonempty : p ≠ "")
    (start : fs.find here cwd = .ok directory) (found : fs.find here (Path.join cwd p) = .ok id) :
    fs.find directory p = .ok id := by
  cases kind : Path.isAbsolute p with
  | true =>
    rw [Path.join_of_isAbsolute kind] at found
    rw [find_of_isAbsolute kind directory here]
    exact found
  | false =>
    have startLocated := locate_of_find start
    obtain ⟨_, _, startWalks⟩ := locate_of_ok startLocated
    rw [startWalks] at startLocated
    have located := locate_of_find found
    obtain ⟨_, short, walks⟩ := locate_of_ok located
    have same : startOf here (Path.join cwd p) = startOf here cwd := by
      rw [startOf_of_isAbsolute (Path.isAbsolute_join absolute p), startOf_of_isAbsolute absolute]
    -- both walks go through the directory, after which only the names of `p` are left
    have rooted : cwd ≠ "" := by
      rintro rfl
      exact absurd absolute (by decide)
    obtain ⟨front, more, cut, slashes, cut'⟩ := Path.pieces_join kind rooted
    rw [walks, same, cut'] at located
    obtain ⟨mid, first, links', fewer, second⟩ := walk_append (Text.pieces_ne_nil '/' p) located
    have arrived : mid = directory := by
      rw [cut] at startLocated
      rcases slashes with rfl | rfl
      · rw [List.append_nil, first] at startLocated
        exact Landing.node.inj (Except.ok.inj startLocated)
      · obtain ⟨mid', first', links'', _, second'⟩ := walk_append (by simp) startLocated
        rw [first] at first'
        cases first'
        exact (Landing.node.inj (walk_of_onlySlashes (by simp [OnlySlashes]) second')).symm
    subst arrived
    apply find_of_locate
    unfold locate
    have short' : ¬ maxPath < p.utf8ByteSize := by
      rw [Path.join_of_relative kind, String.utf8ByteSize_append] at short
      omega
    rw [if_neg nonempty, if_neg short', startOf, kind]
    exact walk_of_le fewer second

end FileSystem

/-! ## Trees stay trees -/

/-- Whatever a line does, what was a tree is one afterwards. -/
theorem Act.runLine_isTree {w : World} (line : String) (tree : w.files.IsTree) :
    ((runLine line).run w).files.IsTree := by
  have steps := runLine_takes line w
  rw [← run_eq_state] at steps
  exact tree.edits (World.Steps.files steps)

/-! ## What the shell does with a file -/

namespace Builtin

open Act

/-- What `cat` does with what reading a file came to. -/
def showRead (name : String) : Option (Except Errno Bytes) → Act Bool
  | some (.ok bytes) => do
    printBytes .out bytes
    return true
  | some (.error e) => do
    report s!"cat: {name}: {e.text}"
    return false
  | none => throw .endless

/-- What `cd` does with what entering the directory `path` came to, which the user called
`target`. -/
def goTo (target path : String) : Except Errno NodeId → Act Int
  | .ok _ => do
    note .debug .builtin s!"cd {(← get).session.cwd} -> {path}"
    remember fun s => { s with cwd := path }
    return 0
  | .error e => do
    report s!"cd: {target}: {e.text}"
    return 1

end Builtin

/-- What a redirection does with what opening its file came to. -/
def Act.divert (c : Channel) (r : Redirect) :
    Except Fault (NodeId × FileSystem) → Act (Option Refusal)
  | .ok (node, files) => do
    modify fun w => w.diverted c r node files
    return none
  | .error (.refused e) => return some ⟨r.path, e⟩
  | .error fault => throw fault

/-- What the shell calls `p` is for it what it is for a child in `directory`: it reads, enters and
opens for writing the same, or is refused it for the same reason. -/
structure World.ActsAlike (w : World) (directory : NodeId) (p : String) : Prop where
  read : w.files.read w.here (w.session.resolve p) = w.files.read directory p
  enter : w.files.enter w.here (w.session.resolve p) = w.files.enter directory p
  shows : Builtin.showFile p w = Builtin.showRead p (w.files.read directory p) w
  goes : Builtin.expandHome w.session p = some p →
    Builtin.run .cd [p] w = Builtin.goTo p (w.session.resolve p) (w.files.enter directory p) w
  diverts : ∀ c append, Act.openRedirect c (some ⟨p, append⟩) w =
    Act.divert c ⟨p, append⟩ (w.files.openToWrite directory p append) w

namespace World

variable {w : World} {directory id : NodeId} {p : String}

/-- `cd` looks at the directory by its canonical path, as entering it does. -/
theorem runCd_of_find (tree : w.files.IsTree)
    (found : w.files.find w.here (w.session.resolve p) = .ok id)
    (plain : Builtin.expandHome w.session p = some p) :
    Builtin.run .cd [p] w =
      Builtin.goTo p (w.session.resolve p) (w.files.enter w.here (w.session.resolve p)) w := by
  obtain ⟨node, there⟩ := FileSystem.exists_node_of_find tree found
  simp only [Builtin.run, Builtin.runCd, Builtin.runCd.go, Act.bind_apply, Act.get_apply, plain,
    Builtin.directoryError?, FileSystem.lookup, FileSystem.enter, found, there]
  cases node with
  | directory access parent own entries =>
    dsimp only
    cases access.execute <;> rfl
  | file access data program => rfl
  | link target => rfl
  | device device => rfl

/-- A file that is there is opened without anything being made on the way. -/
theorem openRedirect_of_find (found : w.files.find w.here (w.session.resolve p) = .ok id)
    (clean : ¬ holdsNull (w.session.resolve p))
    (slash : Path.endsInSlash p → ∃ access parent own entries,
      w.files.node? id = some (.directory access parent own entries))
    (c : Channel) (append : Bool) : Act.openRedirect c (some ⟨p, append⟩) w =
      Act.divert c ⟨p, append⟩ (w.files.openNode id append) w := by
  by_cases ends : Path.endsInSlash p
  · obtain ⟨access, parent, own, entries, there⟩ := slash ends
    simp only [Act.openRedirect, ends, if_true, FileSystem.openNode, there]
    rfl
  · have opens := FileSystem.openTarget_of_find found append
    rw [show (Path.resolve w.session.cwd p).toString = w.session.resolve p from rfl,
      FileSystem.openToWrite_of_find found clean] at opens
    simp only [Act.openRedirect, ends, if_false, Act.bind_apply, Act.get_apply, opens,
      Bool.false_eq_true]
    cases w.files.openNode id append with
    | ok opened => rfl
    | error fault => cases fault <;> rfl

theorem actsAlike_of_find (tree : w.files.IsTree)
    (found : w.files.find w.here (w.session.resolve p) = .ok id)
    (found' : w.files.find directory p = .ok id)
    (clean : ¬ holdsNull (w.session.resolve p)) (clean' : ¬ holdsNull p) :
    w.ActsAlike directory p := by
  have looked : w.files.lookup w.here (w.session.resolve p) = w.files.lookup directory p := by
    simp only [FileSystem.lookup, found, found']
  have read : w.files.read w.here (w.session.resolve p) = w.files.read directory p := by
    simp only [FileSystem.read, looked]
  have enter : w.files.enter w.here (w.session.resolve p) = w.files.enter directory p := by
    simp only [FileSystem.enter, found, found']
  have opened : ∀ append, w.files.openToWrite directory p append = w.files.openNode id append :=
    FileSystem.openToWrite_of_find found' clean'
  refine ⟨read, enter, ?_, fun plain => ?_, fun c append => ?_⟩
  · simp only [Builtin.showFile, Act.bind_apply, Act.get_apply, clean, read, Bool.false_eq_true,
      if_false]
    rcases w.files.read directory p with _ | _ | _ <;> rfl
  · rw [runCd_of_find tree found plain, enter]
  · rw [opened, openRedirect_of_find found clean fun slash =>
      FileSystem.exists_directory_of_endsInSlash slash found']

/-- The canonical form of a path leads to where the path leads as seen from the directory of the
session, if no name is `..` or no link is met. What a child that runs there finds is the same,
then, and the shell does with it what the child would do. -/
theorem find_resolve (tree : w.files.IsTree) (absolute : Path.isAbsolute w.session.cwd)
    (plain : ".." ∉ Text.pieces '/' (Path.join w.session.cwd p) ∨
      w.files.MeetsNoLink w.here (Path.join w.session.cwd p))
    (found : w.files.find w.here (Path.join w.session.cwd p) = .ok id) :
    w.files.find w.here (w.session.resolve p) = .ok id ∧
      ∀ directory, w.files.enter w.here w.session.cwd = .ok directory → p ≠ "" →
        w.files.find directory p = .ok id ∧
        (¬ holdsNull (Path.join w.session.cwd p) → w.ActsAlike directory p) := by
  have resolved : w.files.find w.here (w.session.resolve p) = .ok id :=
    FileSystem.find_normalize tree (Path.isAbsolute_join absolute p) plain found
  refine ⟨resolved, fun directory entered nonempty => ?_⟩
  have found' : w.files.find directory p = .ok id :=
    FileSystem.find_of_find_join absolute nonempty (FileSystem.find_of_enter entered) found
  refine ⟨found', fun clean => ?_⟩
  have clean' : ¬ holdsNull (w.session.resolve p) :=
    fun holds => clean (Path.holdsNull_of_normalize holds)
  exact actsAlike_of_find tree resolved found' clean' fun holds =>
    clean (Path.holdsNull_join _ holds)

/-- A directory with a file beside another directory, and a link to that one. -/
def beside : World where
  files := (FileSystem.initial "w").furnish
    [.file "a/c" (Utf8.encode "text") FileSystem.fileAccess,
      .directory "a/b" FileSystem.fullAccess, .link "l" "a/b"]
  here := FileSystem.workplace
  session := { cwd := "/w/a/b", env := [] }

theorem find_resolve_beside :
    beside.files.IsTree ∧ Path.isAbsolute beside.session.cwd ∧
      beside.files.MeetsNoLink beside.here (Path.join beside.session.cwd "../c") ∧
      beside.files.find beside.here (beside.session.resolve "../c") = .ok 8 ∧
      beside.ActsAlike 9 "../c" := by
  have tree : beside.files.IsTree := FileSystem.isTree_furnish _ _
  have absolute : Path.isAbsolute beside.session.cwd := by decide
  have walks : beside.files.walk .use 0
      (FileSystem.startOf beside.here (Path.join beside.session.cwd "../c"))
      (Text.pieces '/' (Path.join beside.session.cwd "../c")) = .ok (.node 8) := rfl
  have unlinked : beside.files.MeetsNoLink beside.here (Path.join beside.session.cwd "../c") := by
    simp [FileSystem.MeetsNoLink, walks]
  have there : beside.files.find beside.here (Path.join beside.session.cwd "../c") = .ok 8 := rfl
  have found := find_resolve tree absolute (.inr unlinked) there
  have entered : beside.files.enter beside.here beside.session.cwd = .ok 9 := rfl
  exact ⟨tree, absolute, unlinked, found.1,
    (found.2 9 entered (by decide)).2 (by decide)⟩

/-- Behind a link `..` leads elsewhere, and the canonical form does not know that. -/
example : (beside.files.find beside.here "/w/l/../c").toOption = some 8 ∧
    (beside.files.find beside.here (Path.normalize "/w/l/../c").toString).toOption = none := by
  decide +kernel

end World

end LineShell
