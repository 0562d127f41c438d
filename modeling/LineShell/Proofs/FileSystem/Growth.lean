import LineShell.Proofs.FileSystem.Contents
import LineShell.Proofs.FileSystem.Passage
import Mathlib.Tactic.SplitIfs

/-!
# Trees that have grown

`FileSystem.Grows fs gs` says that `gs` has all nodes of `fs`, of which files may hold something
else and directories may have more names, and that whatever is new has a new name and is no
link. A path that led somewhere still leads there then, since a name that a directory had keeps
its meaning.

Main statements: `walk_of_grows`, which also says where a walk leads that ended at a vacant
place before something was put there, and that a tree grows by a node that is put into a vacant
place (`Grows.addIn`) and by what a file is made to hold (`Grows.put`).
-/

namespace LineShell

/-- What becomes of a node where a tree grows. A file may hold something else, and a directory may
have more names, which it did not have before. -/
inductive Node.Grown : Node → Node → Prop
  | file {access : Access} {data : Array UInt8} {program : Option Program} (data' : Array UInt8)
      (program' : Option Program) : Grown (.file access data program) (.file access data' program')
  | directory {access : Access} {parent : NodeId} {own : String} {entries : List (String × NodeId)}
      (more : List (String × NodeId))
      (fresh : ∀ entry ∈ more,
        entries.lookup entry.1 = none ∧ more.lookup entry.1 = some entry.2) :
      Grown (.directory access parent own entries) (.directory access parent own (entries ++ more))
  | link (target : String) : Grown (.link target) (.link target)
  | device (device : Device) : Grown (.device device) (.device device)

namespace Node.Grown

theorem refl (node : Node) : node.Grown node := by
  cases node with
  | file access data program => exact .file data program
  | directory access parent own entries =>
    have same : (Node.directory access parent own entries).Grown
        (.directory access parent own (entries ++ [])) := .directory [] nofun
    rwa [List.append_nil] at same
  | link target => exact .link target
  | device device => exact .device device

theorem trans {a b c : Node} (h : a.Grown b) (h' : b.Grown c) : a.Grown c := by
  cases h with
  | file =>
    cases h' with
    | file data program => exact .file data program
  | directory more fresh =>
    cases h' with
    | directory more' fresh' =>
      rw [List.append_assoc]
      refine .directory (more ++ more') fun entry listed => ?_
      rw [List.lookup_append]
      rcases List.mem_append.1 listed with listed | listed
      · obtain ⟨absent, new⟩ := fresh entry listed
        exact ⟨absent, by rw [new, Option.some_or]⟩
      · obtain ⟨absent, new⟩ := fresh' entry listed
        rw [List.lookup_append, Option.or_eq_none_iff] at absent
        exact ⟨absent.1, by rw [absent.2, Option.none_or, new]⟩
  | link target =>
    cases h' with
    | link => exact .link target
  | device device =>
    cases h' with
    | device => exact .device device

end Node.Grown

namespace FileSystem

variable {fs gs hs : FileSystem} {here id new : NodeId}

/-- The directory `dir` has a name for `id`. -/
def Lists (fs : FileSystem) (dir : NodeId) (name : String) (id : NodeId) : Prop :=
  ∃ access parent own entries, fs.node? dir = some (.directory access parent own entries) ∧
    entries.lookup name = some id

/-- Each name is for a node that there is. -/
def IsClosed (fs : FileSystem) : Prop :=
  ∀ {dir name id}, fs.Lists dir name id → id < fs.next

/-- The tree `gs` has all that `fs` has, what is new in it is no link, and only that has got a
name. It is a single one unless names in `fs` were for nothing. -/
structure Grows (fs gs : FileSystem) : Prop where
  next : fs.next ≤ gs.next
  grown : ∀ {id node}, fs.node? id = some node →
    ∃ node', gs.node? id = some node' ∧ node.Grown node'
  unlinked : ∀ {id target}, fs.next ≤ id → gs.node? id ≠ some (.link target)
  names : ∀ {dir name id}, gs.Lists dir name id →
    (fs.next ≤ id ∧ id < gs.next) ∨ fs.Lists dir name id
  once : fs.IsClosed → ∀ {dir dir' name name' id}, fs.next ≤ id → gs.Lists dir name id →
    gs.Lists dir' name' id → dir = dir' ∧ name = name'

theorem exists_node? (h : id < fs.next) : ∃ node, fs.node? id = some node :=
  ⟨fs.nodes[id], Array.getElem?_eq_getElem h⟩

namespace Grows

theorem refl (fs : FileSystem) : Grows fs fs where
  next := Nat.le_refl _
  grown found := ⟨_, found, .refl _⟩
  unlinked outside found := by
    rw [node?_eq_none outside] at found
    cases found
  names listed := .inr listed
  once closed _ _ _ _ _ outside listed := absurd (closed listed) (Nat.not_lt_of_le outside)

theorem closed (h : Grows fs gs) (closed : fs.IsClosed) : gs.IsClosed := by
  intro dir name id listed
  rcases h.names listed with new | before
  · exact new.2
  · exact Nat.lt_of_lt_of_le (closed before) h.next

theorem trans (h : Grows fs gs) (h' : Grows gs hs) : Grows fs hs where
  next := Nat.le_trans h.next h'.next
  grown found := by
    obtain ⟨node', found', grown⟩ := h.grown found
    obtain ⟨node'', found'', grown'⟩ := h'.grown found'
    exact ⟨node'', found'', grown.trans grown'⟩
  unlinked {id target} outside found := by
    by_cases old : id < gs.next
    · -- a node that was made in between has not become a link
      obtain ⟨node, before⟩ := exists_node? old
      obtain ⟨node', same, grown⟩ := h'.grown before
      rw [found] at same
      cases same
      cases grown
      exact h.unlinked outside before
    · exact h'.unlinked (Nat.le_of_not_lt old) found
  names listed := by
    rcases h'.names listed with new | before
    · exact .inl ⟨Nat.le_trans h.next new.1, new.2⟩
    · exact (h.names before).imp_left fun new => ⟨new.1, Nat.lt_of_lt_of_le new.2 h'.next⟩
  once closed {dir dir' name name' id} outside listed listed' := by
    by_cases old : id < gs.next
    · -- its name is from in between, too
      have earlier : ¬ (gs.next ≤ id ∧ id < hs.next) := fun new => Nat.not_le_of_lt old new.1
      have before := (h'.names listed).resolve_left earlier
      have before' := (h'.names listed').resolve_left earlier
      exact h.once closed outside before before'
    · exact h'.once (h.closed closed) (Nat.le_of_not_lt old) listed listed'

theorem directory (grows : Grows fs gs) {access : Access} {parent : NodeId} {own : String}
    {entries : List (String × NodeId)}
    (found : fs.node? id = some (.directory access parent own entries)) :
    ∃ more, gs.node? id = some (.directory access parent own (entries ++ more)) := by
  obtain ⟨node', found', grown⟩ := grows.grown found
  cases grown with
  | directory more _ => exact ⟨more, found'⟩

/-- No link is made and none is changed. -/
theorem link_iff (grows : Grows fs gs) {target : String} :
    gs.node? id = some (.link target) ↔ fs.node? id = some (.link target) := by
  constructor
  · intro after
    by_cases old : id < fs.next
    · obtain ⟨node, before⟩ := exists_node? old
      obtain ⟨node', same, grown⟩ := grows.grown before
      rw [after] at same
      cases same
      cases grown
      exact before
    · exact absurd after (grows.unlinked (Nat.le_of_not_lt old))
  · intro before
    obtain ⟨node', after, grown⟩ := grows.grown before
    cases grown
    exact after

end Grows

end FileSystem

/-! ## Walks -/

/-- The node at the end of a walk, once there is the node `new` at a place that was vacant. -/
def Landing.filled (new : NodeId) : Landing → NodeId
  | .node id => id
  | .vacant _ _ => new

namespace FileSystem

variable {fs gs : FileSystem} {here new : NodeId} {purpose : Purpose} {landing : Landing}
  {names : List String}

/-- A name that a directory had keeps its meaning. -/
theorem step_of_grows (grows : Grows fs gs) {name : String} {next : Step}
    (h : fs.step here name = .ok next) (known : next ≠ .missing) :
    gs.step here name = .ok next := by
  obtain ⟨access, parent, own, entries, found⟩ := exists_directory_of_step h
  obtain ⟨more, found'⟩ := grows.directory found
  simp only [step, found] at h
  simp only [step, found', List.lookup_append]
  cases listed : entries.lookup name with
  | none =>
    -- the name was not looked up, or it would be missing
    simp only [listed] at h
    split_ifs at h ⊢ <;> simp_all
  | some id =>
    simp only [listed] at h
    rw [Option.some_or]
    dsimp only
    split_ifs at h ⊢
    any_goals exact h
    -- of the node that the name is for it only matters whether it is a link
    cases linked : fs.node? id with
    | some node =>
      obtain ⟨node', after, grown⟩ := grows.grown linked
      rw [linked] at h
      rw [after]
      cases grown <;> exact h
    | none =>
      have after : ∀ target, gs.node? id ≠ some (.link target) := by
        intro target made
        rw [grows.link_iff, linked] at made
        cases made
      rw [linked] at h
      split
      case h_1 target made => exact absurd made (after target)
      case h_2 => exact h

/-- There is the node `new`, no link, at a place where a walk ended. -/
def Fills (gs : FileSystem) (new : NodeId) (landing : Landing) : Prop :=
  ∀ dir name, landing = .vacant dir name →
    gs.Lists dir name new ∧ ∀ target, gs.node? new ≠ some (.link target)

theorem fills_node (gs : FileSystem) (new id : NodeId) : gs.Fills new (.node id) :=
  fun _ _ vacant => by cases vacant

/-- A name that was missing leads to the node that it is for now. -/
theorem step_of_fills (grows : Grows fs gs) {dir : NodeId} {name : String}
    (h : fs.step dir name = .ok .missing) (fills : gs.Fills new (.vacant dir name)) :
    gs.step dir name = .ok (.node new) := by
  obtain ⟨access, parent, own, entries, found⟩ := exists_directory_of_step h
  obtain ⟨more, found'⟩ := grows.directory found
  obtain ⟨⟨_, _, _, _, found'', listed⟩, plain⟩ := fills dir name rfl
  rw [found'] at found''
  cases found''
  simp only [step, found] at h
  simp only [step, found', listed]
  split_ifs at h ⊢
  any_goals cases h
  cases made : gs.node? new with
  | none => rfl
  | some node =>
    cases node with
    | link target => exact absurd made (plain target)
    | _ => rfl

theorem walkWith_of_grows (grows : Grows fs gs) (fills : gs.Fills new landing)
    {jump jump' : NodeId → List String → Except Errno Landing}
    (jumps : ∀ start names, jump start names = .ok landing →
      jump' start names = .ok (.node (landing.filled new)))
    (h : fs.walkWith purpose jump here names = .ok landing) :
    gs.walkWith purpose jump' here names = .ok (.node (landing.filled new)) := by
  induction names generalizing here with
  | nil =>
    cases h
    rfl
  | cons name rest ih =>
    have open_ := isDots_of_walkWith h
    rw [walkWith_cons open_] at h ⊢
    cases stepped : fs.step here name with
    | error e => simp [stepped] at h
    | ok next =>
      rw [stepped] at h
      cases next with
      | node id =>
        rw [step_of_grows grows stepped nofun]
        exact ih h
      | link id target =>
        rw [step_of_grows grows stepped nofun]
        dsimp only at h ⊢
        split at h
        case isTrue last =>
          cases h
          exact if_pos last
        case isFalse on =>
          rw [if_neg on]
          exact jumps _ _ h
      | missing =>
        dsimp only at h
        split at h
        case isFalse => cases h
        case isTrue last =>
          -- the walk ended at this name, for which there is a node now
          cases h
          rw [step_of_fills grows stepped fills, last]
          rfl

/-- A walk ends where it ended before, or at what was put there. -/
theorem walk_of_grows (grows : Grows fs gs) (fills : gs.Fills new landing) {links : Nat}
    (h : fs.walk purpose links here names = .ok landing) :
    gs.walk purpose links here names = .ok (.node (landing.filled new)) := by
  induction links generalizing here names with
  | zero => exact walkWith_of_grows grows fills (fun _ _ found => by cases found) h
  | succ links ih => exact walkWith_of_grows grows fills (fun _ _ found => ih found) h

theorem locate_of_grows (grows : Grows fs gs) (fills : gs.Fills new landing) {path : String}
    (h : fs.locate purpose here path = .ok landing) :
    gs.locate purpose here path = .ok (.node (landing.filled new)) := by
  unfold locate at h ⊢
  split at h
  case isTrue => cases h
  case isFalse some_ =>
    split at h
    case isTrue => cases h
    case isFalse short =>
      rw [if_neg some_, if_neg short]
      exact walk_of_grows grows fills h

/-- A path that led somewhere still leads there. -/
theorem Grows.find (grows : Grows fs gs) {path : String} {id : NodeId}
    (h : fs.find here path = .ok id) : gs.find here path = .ok id :=
  find_of_locate (locate_of_grows grows (gs.fills_node id id) (locate_of_find h))

/-! ## Vacant places -/

variable {dir : NodeId} {name : String}

/-- The directory `dir` does not have the name. -/
def Lacks (fs : FileSystem) (dir : NodeId) (name : String) : Prop :=
  ∃ access parent own entries, fs.node? dir = some (.directory access parent own entries) ∧
    entries.lookup name = none

theorem lacks_of_step (h : fs.step dir name = .ok .missing) : fs.Lacks dir name := by
  obtain ⟨access, parent, own, entries, found⟩ := exists_directory_of_step h
  refine ⟨access, parent, own, entries, found, ?_⟩
  simp only [step, found] at h
  split_ifs at h
  any_goals cases h
  cases listed : entries.lookup name with
  | none => rfl
  | some id =>
    rw [listed] at h
    dsimp only at h
    split at h <;> cases h

theorem lacks_of_walkWith {jump : NodeId → List String → Except Errno Landing}
    (jumps : ∀ start names, jump start names = .ok (.vacant dir name) → fs.Lacks dir name)
    (h : fs.walkWith purpose jump here names = .ok (.vacant dir name)) : fs.Lacks dir name := by
  induction names generalizing here with
  | nil => cases h
  | cons next rest ih =>
    rw [walkWith_cons (isDots_of_walkWith h)] at h
    cases stepped : fs.step here next with
    | error e => simp [stepped] at h
    | ok step' =>
      rw [stepped] at h
      cases step' with
      | node id => exact ih h
      | link id target =>
        dsimp only at h
        split at h
        · cases h
        · exact jumps _ _ h
      | missing =>
        dsimp only at h
        split at h
        · cases h
          exact lacks_of_step stepped
        · cases h

/-- A walk ends at a vacant place only where a directory does not have the name. -/
theorem lacks_of_walk {links : Nat}
    (h : fs.walk purpose links here names = .ok (.vacant dir name)) : fs.Lacks dir name := by
  induction links generalizing here names with
  | zero => exact lacks_of_walkWith (fun _ _ found => by cases found) h
  | succ links ih => exact lacks_of_walkWith (fun _ _ found => ih found) h

theorem lacks_of_locate {path : String}
    (h : fs.locate purpose here path = .ok (.vacant dir name)) : fs.Lacks dir name := by
  obtain ⟨_, _, walks⟩ := locate_of_ok h
  rw [walks] at h
  exact lacks_of_walk h

/-! ## What is put into a tree -/

variable {id : NodeId} {node : Node}

/-- A name is where it was, unless the one node that has changed was or is a directory. -/
theorem lists_put {other : NodeId} (plain : ∀ access parent own entries,
      node ≠ .directory access parent own entries)
    (listed : (fs.put id node).Lists dir name other) : fs.Lists dir name other := by
  obtain ⟨access, parent, own, entries, found, lookup⟩ := listed
  by_cases inside : id < fs.next
  · by_cases same : dir = id
    · subst same
      rw [node?_put_self _ inside] at found
      exact absurd (Option.some.inj found) (plain access parent own entries)
    · rw [node?_put_of_ne _ same] at found
      exact ⟨access, parent, own, entries, found, lookup⟩
  · rw [put_eq_self (Nat.le_of_not_lt inside)] at found
    exact ⟨access, parent, own, entries, found, lookup⟩

/-- A file that holds something else has grown. -/
theorem Grows.put {access : Access} {data : Array UInt8} {program : Option Program}
    (file : fs.node? id = some (.file access data program)) (data' : Array UInt8)
    (program' : Option Program) : Grows fs (fs.put id (.file access data' program')) where
  next := by simp
  grown {other node} found := by
    by_cases same : other = id
    · subst same
      rw [file] at found
      cases found
      exact ⟨_, node?_put_self _ (lt_next_of_node? file), .file data' program'⟩
    · exact ⟨node, by rw [node?_put_of_ne _ same, found], .refl node⟩
  unlinked {other target} outside found := by
    rw [node?_eq_none (by simpa using outside)] at found
    cases found
  names listed := .inr (lists_put (by simp) listed)
  once closed _ _ _ _ _ outside listed _ :=
    absurd (closed (lists_put (by simp) listed)) (Nat.not_lt_of_le outside)

/-! ## What is added to a tree -/

end FileSystem

/-- A node that may be new in a tree: a file, or a directory with no names in it. -/
inductive Node.IsBare : Node → Prop
  | file (access : Access) (data : Array UInt8) (program : Option Program) :
      IsBare (.file access data program)
  | directory (access : Access) (parent : NodeId) (own : String) :
      IsBare (.directory access parent own [])

namespace FileSystem

variable {fs : FileSystem} {dir here : NodeId} {name : String} {node : Node}

theorem next_addIn (lacks : fs.Lacks dir name) (node : Node) :
    (fs.addIn dir name node).next = fs.next + 1 := by
  obtain ⟨access, parent, own, entries, found, _⟩ := lacks
  simp [addIn, found]

theorem node?_addIn_self (lacks : fs.Lacks dir name) (node : Node) :
    (fs.addIn dir name node).node? fs.next = some node := by
  obtain ⟨access, parent, own, entries, found, _⟩ := lacks
  have other : fs.next ≠ dir := (Nat.ne_of_lt (lt_next_of_node? found)).symm
  simp [addIn, found, other]

theorem node?_addIn_dir {access : Access} {parent : NodeId} {own : String}
    {entries : List (String × NodeId)}
    (found : fs.node? dir = some (.directory access parent own entries)) (node : Node) :
    (fs.addIn dir name node).node? dir =
      some (.directory access parent own (entries ++ [(name, fs.next)])) := by
  unfold addIn
  rw [found]
  exact node?_put_self _ (by simpa using Nat.lt_succ_of_lt (lt_next_of_node? found))

theorem node?_addIn_of_ne {other : NodeId} (different : other ≠ dir) (old : other ≠ fs.next)
    (node : Node) : (fs.addIn dir name node).node? other = fs.node? other := by
  unfold addIn
  split
  · rw [node?_put_of_ne _ different, node?_add, if_neg old]
  · rfl

theorem lists_addIn_self (lacks : fs.Lacks dir name) (node : Node) :
    (fs.addIn dir name node).Lists dir name fs.next := by
  obtain ⟨access, parent, own, entries, found, absent⟩ := lacks
  exact ⟨access, parent, own, _, node?_addIn_dir found node, by simp [List.lookup_append, absent]⟩

/-- The one name more is that of the new node. -/
theorem lists_addIn (bare : node.IsBare) (lacks : fs.Lacks dir name) {dir' other : NodeId}
    {name' : String} (listed : (fs.addIn dir name node).Lists dir' name' other) :
    (dir' = dir ∧ name' = name ∧ other = fs.next) ∨ fs.Lists dir' name' other := by
  obtain ⟨access, parent, own, entries, found, absent⟩ := lacks
  obtain ⟨access', parent', own', entries', found', lookup⟩ := listed
  by_cases same : dir' = dir
  · subst same
    rw [node?_addIn_dir found] at found'
    cases found'
    cases before : entries.lookup name' with
    | some id =>
      rw [List.lookup_append, before] at lookup
      cases lookup
      exact .inr ⟨_, _, _, _, found, before⟩
    | none =>
      rw [List.lookup_append, before, Option.none_or, List.lookup_cons] at lookup
      by_cases named : name' = name
      · simp only [named, beq_self_eq_true, Option.some.injEq] at lookup
        exact .inl ⟨rfl, named, lookup.symm⟩
      · simp [beq_false_of_ne named] at lookup
  · by_cases new : dir' = fs.next
    · -- the new node is a directory without names, if it is one
      subst new
      rw [node?_addIn_self ⟨access, parent, own, entries, found, absent⟩] at found'
      cases found'
      cases bare
      cases lookup
    · rw [node?_addIn_of_ne same new] at found'
      exact .inr ⟨_, _, _, _, found', lookup⟩

theorem Grows.addIn (bare : node.IsBare) (lacks : fs.Lacks dir name) :
    Grows fs (fs.addIn dir name node) where
  next := by simp [next_addIn lacks]
  grown {other old} found := by
    by_cases same : other = dir
    · subst same
      obtain ⟨access, parent, own, entries, found', absent⟩ := lacks
      rw [found] at found'
      cases found'
      refine ⟨_, node?_addIn_dir found node, .directory [(name, fs.next)] fun entry listed => ?_⟩
      obtain rfl := List.mem_singleton.1 listed
      exact ⟨absent, by simp⟩
    · have inside := Nat.ne_of_lt (lt_next_of_node? found)
      exact ⟨old, by rw [node?_addIn_of_ne same inside, found], .refl old⟩
  unlinked {other target} outside found := by
    by_cases new : other = fs.next
    · subst new
      rw [node?_addIn_self lacks] at found
      cases found
      cases bare
    · have beyond : fs.next + 1 ≤ other := Nat.lt_of_le_of_ne outside (Ne.symm new)
      rw [node?_eq_none (by rwa [next_addIn lacks])] at found
      cases found
  names listed := by
    rw [next_addIn lacks]
    rcases lists_addIn bare lacks listed with ⟨_, _, rfl⟩ | before
    · exact .inl ⟨Nat.le_refl _, Nat.lt_succ_self _⟩
    · exact .inr before
  once closed _ _ _ _ other outside listed listed' := by
    have new : ∀ {dir' name'}, (fs.addIn dir name node).Lists dir' name' other →
        dir' = dir ∧ name' = name := by
      intro dir' name' listed
      rcases lists_addIn bare lacks listed with ⟨same, named, _⟩ | before
      · exact ⟨same, named⟩
      · exact absurd (closed before) (Nat.not_lt_of_le outside)
    obtain ⟨rfl, rfl⟩ := new listed
    exact ⟨(new listed').1.symm, (new listed').2.symm⟩

/-- A node that was put where a path ended is what the path leads to. -/
theorem find_addIn {path : String} (bare : node.IsBare)
    (missing : fs.locate .use here path = .ok (.vacant dir name)) :
    (fs.addIn dir name node).find here path = .ok fs.next := by
  have lacks := lacks_of_locate missing
  have fills : (fs.addIn dir name node).Fills fs.next (.vacant dir name) := by
    rintro _ _ ⟨⟩
    refine ⟨lists_addIn_self lacks node, fun target linked => ?_⟩
    rw [node?_addIn_self lacks] at linked
    cases linked
    cases bare
  exact find_of_locate (locate_of_grows (.addIn bare lacks) fills missing)

end FileSystem

end LineShell
