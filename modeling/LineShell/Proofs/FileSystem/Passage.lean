import LineShell.FileSystem.Edit
import LineShell.Proofs.Path.Canonical
import Mathlib.Tactic.ByContra

/-!
# Where a walk passes through

A walk that ends somewhere has passed through directories. `FileSystem.step` is what one name
does on a walk, whatever the walk is for, and `walk_append` cuts a walk in two: what the first
names lead to is a directory, from which the other names are followed.

Main statements: `walk_append`, and that what a walk leads to hardly depends on its purpose
(`walk_write_of_walk_use`, `walk_entry_of_walk_use`, `walk_use_of_walk`).
-/

namespace LineShell.FileSystem

/-- What one name of a path leads to. -/
inductive Step
  | node (id : NodeId)
  /-- To the link `id`, which is still to be followed. -/
  | link (id : NodeId) (target : String)
  | missing

/-- The step from the node `here` that a name asks for. -/
def step (fs : FileSystem) (here : NodeId) (name : String) : Except Errno Step :=
  match fs.node? here with
  | some (.directory access parent _ entries) =>
    if name = "" then .ok (.node here)
    else if !access.execute then .error .permissionDenied
    else if name = "." then .ok (.node here)
    else if name = ".." then .ok (.node parent)
    else if maxName < name.utf8ByteSize then .error .nameTooLong
    else
      match entries.lookup name with
      | none => .ok .missing
      | some id =>
        match fs.node? id with
        | some (.link target) => .ok (.link id target)
        | _ => .ok (.node id)
  | _ => .error .notDirectory

/-- Whether nothing but slashes stands after a name. -/
def OnlySlashes (rest : List String) : Prop :=
  rest ≠ [] ∧ rest.all (· = "")

variable {fs : FileSystem} {jump : NodeId → List String → Except Errno Landing}
  {here : NodeId} {name : String} {rest : List String}

theorem exists_directory_of_step {next : Step} (h : fs.step here name = .ok next) :
    ∃ access parent own entries, fs.node? here = some (.directory access parent own entries) := by
  unfold step at h
  split at h
  case h_1 access parent own entries found => exact ⟨access, parent, own, entries, found⟩
  case h_2 => cases h

/-- Names that lead to a directory without being looked up in one. -/
def IsDots (name : String) : Prop :=
  name = "" ∨ name = "." ∨ name = ".."

/-- The first step of a walk, where slashes at the end of a path are not refused. -/
theorem walkWith_cons {purpose : Purpose}
    (open_ : purpose = .write ∧ OnlySlashes rest → IsDots name) :
    fs.walkWith purpose jump here (name :: rest) =
      match fs.step here name with
      | .error e => .error e
      | .ok (.node id) => fs.walkWith purpose jump id rest
      | .ok (.link id target) =>
        if rest = [] ∧ purpose = .entry then .ok (.node id)
        else jump (startOf here target) (Text.pieces '/' target ++ rest)
      | .ok .missing => if rest = [] then .ok (.vacant here name) else .error .noEntry := by
  rw [walkWith, step]
  -- `walkWith` asks what `step` asks, in the same order
  cases fs.node? here with
  | none => rfl
  | some node =>
    cases node with
    | directory access parent own entries =>
      dsimp only
      by_cases empty : name = ""
      · simp only [if_pos empty]
      by_cases blocked : (!access.execute) = true
      · simp only [if_neg empty, if_pos blocked]
      by_cases dot : name = "."
      · simp only [if_neg empty, if_neg blocked, if_pos dot]
      by_cases dots : name = ".."
      · simp only [if_neg empty, if_neg blocked, if_neg dot, if_pos dots]
      have unrefused : ¬ (purpose = .write ∧ rest ≠ [] ∧ (rest.all (· = "")) = true) := by
        intro refused
        rcases open_ refused with same | same | same <;> contradiction
      by_cases long : maxName < name.utf8ByteSize
      · simp only [if_neg empty, if_neg blocked, if_neg dot, if_neg dots, if_neg unrefused,
          if_pos long]
      simp only [if_neg empty, if_neg blocked, if_neg dot, if_neg dots, if_neg unrefused,
        if_neg long]
      cases entries.lookup name with
      | none => rfl
      | some id =>
        dsimp only
        cases fs.node? id with
        | none => rfl
        | some node => cases node <;> rfl
    | file => rfl
    | link => rfl
    | device => rfl

/-- A walk that gets anywhere was not refused for the slashes at the end. -/
theorem isDots_of_walkWith {purpose : Purpose} {landing : Landing}
    (h : fs.walkWith purpose jump here (name :: rest) = .ok landing)
    (slashes : purpose = .write ∧ OnlySlashes rest) : IsDots name := by
  by_contra named
  simp only [IsDots, not_or] at named
  obtain ⟨empty, dot, dots⟩ := named
  have refused : purpose = .write ∧ rest ≠ [] ∧ (rest.all (· = "")) = true := slashes
  unfold walkWith at h
  split at h
  · simp only [if_neg empty, if_neg dot, if_neg dots, if_pos refused] at h
    split at h <;> cases h
  · cases h

theorem walkWith_use_cons : fs.walkWith .use jump here (name :: rest) =
    match fs.step here name with
    | .error e => .error e
    | .ok (.node id) => fs.walkWith .use jump id rest
    | .ok (.link _ target) => jump (startOf here target) (Text.pieces '/' target ++ rest)
    | .ok .missing => if rest = [] then .ok (.vacant here name) else .error .noEntry := by
  rw [walkWith_cons (by simp)]
  simp

variable {id : NodeId} {links : Nat} {names more : List String} {landing : Landing}

/-- A walk that ends at a node begins with a step to a node or to a link. -/
theorem walkWith_use_cons_cases (h : fs.walkWith .use jump here (name :: rest) = .ok (.node id)) :
    (∃ next, fs.step here name = .ok (.node next) ∧
        fs.walkWith .use jump next rest = .ok (.node id)) ∨
      ∃ link target, fs.step here name = .ok (.link link target) ∧
        jump (startOf here target) (Text.pieces '/' target ++ rest) = .ok (.node id) := by
  rw [walkWith_use_cons] at h
  cases stepped : fs.step here name with
  | error e => simp [stepped] at h
  | ok next =>
    rw [stepped] at h
    cases next with
    | node next => exact .inl ⟨next, rfl, h⟩
    | link link target => exact .inr ⟨link, target, rfl, h⟩
    | missing =>
      dsimp only at h
      split at h
      · cases h
      · cases h

/-! ## Cutting a walk in two -/

theorem walkWith_append {goes : NodeId → Prop} (nonempty : more ≠ [])
    (from_ : ∀ mid, fs.walkWith .use jump mid more = .ok landing → goes mid)
    (jumps : ∀ start names, jump start (names ++ more) = .ok landing →
      ∃ mid, jump start names = .ok (.node mid) ∧ goes mid)
    (h : fs.walkWith .use jump here (names ++ more) = .ok landing) :
    ∃ mid, fs.walkWith .use jump here names = .ok (.node mid) ∧ goes mid := by
  -- on the first names; a link among them is left to `jumps`
  induction names generalizing here with
  | nil => exact ⟨here, rfl, from_ here h⟩
  | cons name names ih =>
    rw [List.cons_append, walkWith_use_cons] at h
    rw [walkWith_use_cons]
    cases stepped : fs.step here name with
    | error e => simp [stepped] at h
    | ok next =>
      rw [stepped] at h
      cases next with
      | node id => exact ih h
      | link id target =>
        dsimp only at h
        rw [← List.append_assoc] at h
        exact jumps _ _ h
      | missing => simp [nonempty] at h

/-- The first names lead to a node, from which the others are followed. The walk may have used
up some links by then. -/
theorem walk_append (nonempty : more ≠ [])
    (h : fs.walk .use links here (names ++ more) = .ok landing) :
    ∃ mid, fs.walk .use links here names = .ok (.node mid) ∧
      ∃ links' ≤ links, fs.walk .use links' mid more = .ok landing := by
  induction links generalizing here names with
  | zero =>
    apply walkWith_append nonempty (fun _ found => ⟨0, Nat.le_refl _, found⟩) ?_ h
    intro start names found
    cases found
  | succ links ih =>
    apply walkWith_append nonempty (fun _ found => ⟨links + 1, Nat.le_refl _, found⟩) ?_ h
    intro start names found
    obtain ⟨mid, first, links', fewer, second⟩ := ih found
    exact ⟨mid, first, links', Nat.le_succ_of_le fewer, second⟩

theorem exists_walkWith (fs : FileSystem) (purpose : Purpose) (links : Nat) :
    ∃ jump, fs.walk purpose links = fs.walkWith purpose jump := by
  cases links with
  | zero => exact ⟨_, rfl⟩
  | succ links => exact ⟨_, rfl⟩

/-- A walk goes on from directories only. -/
theorem exists_directory_of_walk (nonempty : names ≠ [])
    (h : fs.walk .use links here names = .ok landing) :
    ∃ access parent own entries, fs.node? here = some (.directory access parent own entries) := by
  obtain ⟨name, rest, rfl⟩ := List.exists_cons_of_ne_nil nonempty
  obtain ⟨jump, same⟩ := exists_walkWith fs .use links
  rw [same, walkWith_use_cons] at h
  cases stepped : fs.step here name with
  | error e => simp [stepped] at h
  | ok next => exact exists_directory_of_step stepped

theorem walk_of_onlySlashes (slashes : OnlySlashes rest)
    (h : fs.walk .use links here rest = .ok landing) : landing = .node here := by
  obtain ⟨access, parent, own, entries, found⟩ := exists_directory_of_walk slashes.1 h
  obtain ⟨jump, same⟩ := exists_walkWith fs .use links
  rw [same] at h
  have empty := slashes.2
  -- the rest gets shorter, so it is not to be kept that there is one
  clear slashes same
  induction rest with
  | nil => exact (Except.ok.inj h).symm
  | cons name rest ih =>
    simp only [List.all_cons, Bool.and_eq_true, decide_eq_true_eq] at empty
    obtain ⟨rfl, empty⟩ := empty
    rw [walkWith_use_cons] at h
    simp only [step, found, if_true] at h
    exact ih h empty

/-- What is followed by slashes only is a directory. -/
theorem exists_directory_of_onlySlashes (slashes : OnlySlashes rest)
    (h : fs.walk .use links here (name :: rest) = .ok (.node id)) :
    ∃ access parent own entries, fs.node? id = some (.directory access parent own entries) := by
  have whole : fs.walk .use links here ([name] ++ rest) = .ok (.node id) := h
  obtain ⟨mid, _, links', _, second⟩ := walk_append slashes.1 whole
  have same : id = mid := Landing.node.inj (walk_of_onlySlashes slashes second)
  subst same
  exact exists_directory_of_walk slashes.1 second

/-! ## Other purposes -/

theorem walkWith_write_of_use {jump' : NodeId → List String → Except Errno Landing}
    (jumps : ∀ start names, jump start names = .ok (.node id) → jump' start names = .ok (.node id))
    (unslashed : ∀ here name rest, OnlySlashes rest →
      fs.walkWith .use jump here (name :: rest) ≠ .ok (.node id))
    (h : fs.walkWith .use jump here names = .ok (.node id)) :
    fs.walkWith .write jump' here names = .ok (.node id) := by
  induction names generalizing here with
  | nil => exact h
  | cons name rest ih =>
    have open_ : ¬ OnlySlashes rest := fun slashes => unslashed here name rest slashes h
    rw [walkWith_cons fun refused => absurd refused.2 open_]
    rcases walkWith_use_cons_cases h with ⟨next, stepped, onward⟩ | ⟨link, target, stepped, onward⟩
    · rw [stepped]
      exact ih onward
    · rw [stepped]
      simpa using jumps _ _ onward

/-- A file that a path leads to is found also where it is to be written to. -/
theorem walk_write_of_walk_use
    (file : ∀ access parent own entries,
      fs.node? id ≠ some (.directory access parent own entries))
    (h : fs.walk .use links here names = .ok (.node id)) :
    fs.walk .write links here names = .ok (.node id) := by
  -- only for slashes at the end are the two purposes told apart before the last name
  have unslashed : ∀ links here name rest, OnlySlashes rest →
      fs.walk .use links here (name :: rest) ≠ .ok (.node id) := by
    intro links here name rest slashes found
    obtain ⟨access, parent, own, entries, directory⟩ :=
      exists_directory_of_onlySlashes slashes found
    exact file access parent own entries directory
  induction links generalizing here names with
  | zero => exact walkWith_write_of_use (fun _ _ found => by cases found) (unslashed 0) h
  | succ links ih =>
    exact walkWith_write_of_use (fun _ _ found => ih found) (unslashed (links + 1)) h

/-- What a walk leads to does not depend on what it is for, a link that is not followed apart. -/
theorem walkWith_use_of_walkWith {purpose : Purpose}
    {jump' : NodeId → List String → Except Errno Landing}
    (followed : purpose = .entry → ∀ id, landing ≠ .node id)
    (jumps : ∀ start names, jump start names = .ok landing → jump' start names = .ok landing)
    (h : fs.walkWith purpose jump here names = .ok landing) :
    fs.walkWith .use jump' here names = .ok landing := by
  induction names generalizing here with
  | nil => exact h
  | cons name rest ih =>
    rw [walkWith_cons (isDots_of_walkWith h)] at h
    rw [walkWith_use_cons]
    cases stepped : fs.step here name with
    | error e => simp [stepped] at h
    | ok next =>
      rw [stepped] at h
      cases next with
      | node next => exact ih h
      | link link target =>
        dsimp only at h ⊢
        split at h
        case isTrue last => exact absurd (Except.ok.inj h).symm (followed last.2 link)
        case isFalse => exact jumps _ _ h
      | missing => exact h

theorem walk_use_of_walk {purpose : Purpose}
    (followed : purpose = .entry → ∀ id, landing ≠ .node id)
    (h : fs.walk purpose links here names = .ok landing) :
    fs.walk .use links here names = .ok landing := by
  induction links generalizing here names with
  | zero => exact walkWith_use_of_walkWith followed (fun _ _ found => by cases found) h
  | succ links ih => exact walkWith_use_of_walkWith followed (fun _ _ found => ih found) h

/-- What is reached with some links is reached also where more of them may be followed. -/
theorem walk_of_le {links' : Nat} (fewer : links' ≤ links)
    (h : fs.walk .use links' here names = .ok landing) :
    fs.walk .use links here names = .ok landing := by
  have followed : Purpose.use = .entry → ∀ id, landing ≠ .node id := fun entry => by cases entry
  induction links' generalizing links here names with
  | zero =>
    obtain ⟨jump, same⟩ := exists_walkWith fs .use links
    rw [same]
    exact walkWith_use_of_walkWith followed (fun _ _ found => by cases found) h
  | succ links' ih =>
    obtain ⟨links, rfl⟩ := Nat.exists_eq_add_of_le' (Nat.le_trans (Nat.le_add_left 1 links') fewer)
    exact walkWith_use_of_walkWith followed
      (fun _ _ found => ih (Nat.le_of_succ_le_succ fewer) found) h

theorem walkWith_entry_of_use {jump' : NodeId → List String → Except Errno Landing}
    (jumps : ∀ start names, jump start names = .ok (.node id) →
      ∃ other, jump' start names = .ok (.node other))
    (h : fs.walkWith .use jump here names = .ok (.node id)) :
    ∃ other, fs.walkWith .entry jump' here names = .ok (.node other) := by
  induction names generalizing here with
  | nil => exact ⟨here, rfl⟩
  | cons name rest ih =>
    rw [walkWith_cons (by simp)]
    rcases walkWith_use_cons_cases h with ⟨next, stepped, onward⟩ | ⟨link, target, stepped, onward⟩
    · rw [stepped]
      exact ih onward
    · rw [stepped]
      -- a link that ends a path is not followed, but it is there
      dsimp only
      split
      · exact ⟨link, rfl⟩
      · exact jumps _ _ onward

/-- Where a path leads somewhere, its last name is taken. -/
theorem walk_entry_of_walk_use (h : fs.walk .use links here names = .ok (.node id)) :
    ∃ other, fs.walk .entry links here names = .ok (.node other) := by
  induction links generalizing here names with
  | zero => exact walkWith_entry_of_use (fun _ _ found => by cases found) h
  | succ links ih => exact walkWith_entry_of_use (fun _ _ found => ih found) h

/-! ## Paths -/

variable {path : String} {purpose : Purpose}

theorem locate_of_find (h : fs.find here path = .ok id) :
    fs.locate .use here path = .ok (.node id) := by
  unfold find at h
  cases located : fs.locate .use here path with
  | error e => simp [located] at h
  | ok landing =>
    rw [located] at h
    cases landing with
    | node other => rw [Except.ok.inj h]
    | vacant dir name => cases h

theorem find_of_locate (h : fs.locate .use here path = .ok (.node id)) :
    fs.find here path = .ok id := by
  unfold find
  rw [h]

theorem find_of_lookup {node : Node} (h : fs.lookup here path = .ok node) :
    ∃ id, fs.find here path = .ok id ∧ fs.node? id = some node := by
  unfold lookup at h
  cases found : fs.find here path with
  | error e => simp [found] at h
  | ok id =>
    rw [found] at h
    dsimp only at h
    cases there : fs.node? id with
    | none => simp [there] at h
    | some node' =>
      rw [there] at h
      cases h
      exact ⟨id, rfl, there⟩

/-- A path that leads somewhere is not refused as a text. -/
theorem locate_of_ok (h : fs.locate purpose here path = .ok landing) :
    path ≠ "" ∧ path.utf8ByteSize ≤ maxPath ∧ ∀ purpose, fs.locate purpose here path =
      fs.walk purpose maxLinks (startOf here path) (Text.pieces '/' path) := by
  unfold locate at h ⊢
  by_cases empty : path = ""
  · simp [empty] at h
  by_cases long : maxPath < path.utf8ByteSize
  · simp [empty, long] at h
  exact ⟨empty, Nat.le_of_not_lt long, fun purpose => by rw [if_neg empty, if_neg long]⟩

theorem locate_entry_of_find (h : fs.find here path = .ok id) :
    ∃ other, fs.locate .entry here path = .ok (.node other) := by
  have located := locate_of_find h
  obtain ⟨_, _, walks⟩ := locate_of_ok located
  rw [walks] at located ⊢
  exact walk_entry_of_walk_use located

theorem locate_use_of_locate (followed : purpose = .entry → ∀ id, landing ≠ .node id)
    (h : fs.locate purpose here path = .ok landing) : fs.locate .use here path = .ok landing := by
  obtain ⟨_, _, walks⟩ := locate_of_ok h
  rw [walks] at h ⊢
  exact walk_use_of_walk followed h

end LineShell.FileSystem
