import LineShell.Proofs.FileSystem.Passage
import LineShell.Proofs.FileSystem.Tree
import LineShell.Proofs.Path.Below

/-!
# Where canonical paths lead

The canonical form of a path is found without looking at any file, and yet it leads to where the
path leads, under one of two conditions. Where no name is `..`, the canonical form leaves out only
names that ask for nothing (`walk_of_thins`). Where the walk meets no link, the names that are
left after each step lead to the node that the walk has come to (`walk_push`): what `..` takes back
is the name by which the directory was entered, since in a tree each directory has one place.

Main statement: `find_normalize`.
-/

namespace LineShell.FileSystem

variable {fs : FileSystem} {jump jump' : NodeId → List String → Except Errno Landing}
  {here mid id : NodeId} {name : String} {names kept more : List String} {links : Nat}

/-! ## Names that ask for nothing -/

/-- The second list is the first one without some names that ask for nothing. -/
inductive Thins : List String → List String → Prop
  | nil : Thins [] []
  | keep (name : String) {names kept : List String} :
      Thins names kept → Thins (name :: names) (name :: kept)
  | drop {name : String} {names kept : List String} :
      Path.stays name → Thins names kept → Thins (name :: names) kept

namespace Thins

theorem append_left (thins : Thins names kept) (front : List String) :
    Thins (front ++ names) (front ++ kept) := by
  induction front with
  | nil => exact thins
  | cons name front ih => exact ih.keep name

theorem filter (names : List String) : Thins names (names.filter (!Path.stays ·)) := by
  induction names with
  | nil => exact .nil
  | cons name names ih =>
    by_cases stays : Path.stays name
    · rw [List.filter_cons_of_neg (by simp [stays])]
      exact ih.drop stays
    · rw [List.filter_cons_of_pos (by simp [stays])]
      exact ih.keep name

end Thins

theorem step_of_stays {next : Step} (stays : Path.stays name) (h : fs.step here name = .ok next) :
    next = .node here := by
  obtain ⟨access, parent, own, entries, found⟩ := exists_directory_of_step h
  rcases of_decide_eq_true stays with rfl | rfl
  · simp only [step, found, if_true] at h
    exact (Except.ok.inj h).symm
  · simp only [step, found] at h
    split at h
    · exact (Except.ok.inj h).symm
    split at h
    · cases h
    · exact (Except.ok.inj h).symm

theorem walkWith_of_thins (thins : Thins names kept)
    (jumps : ∀ start {names kept}, Thins names kept → jump start names = .ok (.node id) →
      jump' start kept = .ok (.node id))
    (h : fs.walkWith .use jump here names = .ok (.node id)) :
    fs.walkWith .use jump' here kept = .ok (.node id) := by
  induction thins generalizing here with
  | nil => exact h
  | keep name thins ih =>
    rw [walkWith_use_cons]
    rcases walkWith_use_cons_cases h with ⟨next, stepped, onward⟩ | ⟨link, target, stepped, onward⟩
    · rw [stepped]
      exact ih onward
    · rw [stepped]
      exact jumps _ (thins.append_left _) onward
  | drop stays _ ih =>
    rcases walkWith_use_cons_cases h with ⟨next, stepped, onward⟩ | ⟨link, target, stepped, _⟩
    · cases step_of_stays stays stepped
      exact ih onward
    · cases step_of_stays stays stepped

theorem walk_of_thins (thins : Thins names kept)
    (h : fs.walk .use links here names = .ok (.node id)) :
    fs.walk .use links here kept = .ok (.node id) := by
  induction links generalizing here names kept with
  | zero => exact walkWith_of_thins thins (fun _ _ _ _ found => by cases found) h
  | succ links ih => exact walkWith_of_thins thins (fun _ _ _ thins found => ih thins found) h

/-! ## Walks without links -/

/-- No name on the way of a path is that of a link. -/
def MeetsNoLink (fs : FileSystem) (here : NodeId) (path : String) : Prop :=
  fs.walk .use 0 (startOf here path) (Text.pieces '/' path) ≠ .error .tooManyLinks

/-- A walk that meets no link does not depend on how many of them it may follow. -/
theorem walkWith_of_unlinked (h : fs.walk .use 0 here names ≠ .error .tooManyLinks) :
    fs.walkWith .use jump here names = fs.walk .use 0 here names := by
  induction names generalizing here with
  | nil => rfl
  | cons name rest ih =>
    unfold walk at h ⊢
    rw [walkWith_use_cons] at h
    rw [walkWith_use_cons, walkWith_use_cons]
    cases stepped : fs.step here name with
    | error e => rfl
    | ok next =>
      rw [stepped] at h
      cases next with
      | node next => exact ih h
      | link link target => exact absurd rfl h
      | missing => rfl

theorem walk_of_unlinked (h : fs.walk .use 0 here names ≠ .error .tooManyLinks) :
    fs.walk .use links here names = fs.walk .use 0 here names := by
  obtain ⟨jump, same⟩ := exists_walkWith fs .use links
  rw [same]
  exact walkWith_of_unlinked h

theorem walk_zero_cons : fs.walk .use 0 here (name :: names) =
    match fs.step here name with
    | .error e => .error e
    | .ok (.node id) => fs.walk .use 0 id names
    | .ok (.link _ _) => .error .tooManyLinks
    | .ok .missing => if names = [] then .ok (.vacant here name) else .error .noEntry :=
  walkWith_use_cons

theorem exists_step_of_walk_zero (h : fs.walk .use 0 here (name :: names) = .ok (.node id)) :
    ∃ next, fs.step here name = .ok (.node next) ∧ fs.walk .use 0 next names = .ok (.node id) := by
  rcases walkWith_use_cons_cases h with onward | ⟨link, target, _, followed⟩
  · exact onward
  · cases followed

theorem walk_zero_append (first : fs.walk .use 0 here names = .ok (.node mid)) :
    fs.walk .use 0 here (names ++ more) = fs.walk .use 0 mid more := by
  induction names generalizing here with
  | nil =>
    cases first
    rfl
  | cons name names ih =>
    obtain ⟨next, stepped, onward⟩ := exists_step_of_walk_zero first
    rw [List.cons_append, walk_zero_cons, stepped]
    exact ih onward

/-- A step by a name goes to what the directory has the name for. -/
theorem names_of_step (named : ¬ IsDots name) (h : fs.step here name = .ok (.node id)) :
    fs.Names here id := by
  obtain ⟨access, parent, own, entries, found⟩ := exists_directory_of_step h
  simp only [IsDots, not_or] at named
  simp only [step, found, if_neg named.1, if_neg named.2.1, if_neg named.2.2] at h
  split at h
  · cases h
  split at h
  · cases h
  cases listed : entries.lookup name with
  | none => simp [listed] at h
  | some other =>
    rw [listed] at h
    have same : other = id := by
      dsimp only at h
      split at h
      · cases h
      · exact Step.node.inj (Except.ok.inj h)
    subst same
    obtain ⟨front, back, split, _⟩ := List.lookup_eq_some_iff.1 listed
    exact ⟨access, parent, own, entries, found, by simp [split]⟩

variable {top : Root} {above : List String}

/-- One more name: where the names that are left led to the node at hand, they lead to the next
node afterwards. -/
theorem walk_push (tree : fs.IsTree) (grounded : top ≠ .relative) (stacked : Path.IsStack top above)
    (reached : fs.walk .use 0 root above.reverse = .ok (.node here))
    (stepped : fs.step here name = .ok (.node id)) :
    fs.walk .use 0 root (Path.push top above name).reverse = .ok (.node id) := by
  unfold Path.push
  by_cases stays : name = "" ∨ name = "."
  · rw [if_pos stays]
    cases step_of_stays (decide_eq_true stays) stepped
    exact reached
  rw [if_neg stays]
  by_cases up : name = ".."
  · subst up
    obtain ⟨access, parent, own, entries, found⟩ := exists_directory_of_step stepped
    have parent_eq : parent = id := by
      simp only [step, found] at stepped
      split at stepped
      · contradiction
      split at stepped
      · cases stepped
      · exact Step.node.inj (Except.ok.inj stepped)
    subst parent_eq
    have inside : fs.IsIn here parent := ⟨access, own, entries, found⟩
    rw [if_pos rfl]
    cases above with
    | nil =>
      -- above the root is the root itself
      have same : root = here := Landing.node.inj (Except.ok.inj reached)
      subst same
      rw [tree.top inside, if_neg grounded]
      rfl
    | cons nearest others =>
      obtain ⟨⟨nonempty, _⟩, other, back, _⟩ := stacked
      have kept : nearest ≠ ".." := fun same => grounded (back same).1
      dsimp only
      rw [if_neg kept]
      -- the directory was entered by the nearest name, from the one that it is in
      rw [List.reverse_cons] at reached
      obtain ⟨mid, first, links', fewer, second⟩ := walk_append (by simp) reached
      rw [Nat.le_zero.1 fewer] at second
      obtain ⟨entered, step, stays⟩ := exists_step_of_walk_zero second
      obtain rfl : entered = here := Landing.node.inj (Except.ok.inj stays)
      have named : ¬ IsDots nearest := by simp [IsDots, nonempty, other, kept]
      rw [tree.inside (names_of_step named step) inside]
      exact first
  · rw [if_neg up, List.reverse_cons, walk_zero_append reached, walk_zero_cons, stepped]
    rfl

/-- What holds of one name holds of all: the names that are left at the end lead to where the walk
leads. -/
theorem walk_foldl_push (tree : fs.IsTree) (grounded : top ≠ .relative)
    (stacked : Path.IsStack top above) (free : ∀ piece ∈ names, '/' ∉ piece.toList)
    (reached : fs.walk .use 0 root above.reverse = .ok (.node here))
    (h : fs.walk .use 0 here names = .ok (.node id)) :
    fs.walk .use 0 root (names.foldl (Path.push top) above).reverse = .ok (.node id) := by
  induction names generalizing here above with
  | nil =>
    cases h
    exact reached
  | cons name names ih =>
    obtain ⟨next, stepped, onward⟩ := exists_step_of_walk_zero h
    exact ih (stacked.push (free name (.head _))) (fun piece listed => free piece (.tail _ listed))
      (walk_push tree grounded stacked reached stepped) onward

/-! ## Paths -/

variable {path : String}

theorem startOf_of_isAbsolute (absolute : Path.isAbsolute path) (here : NodeId) :
    startOf here path = root :=
  if_pos absolute

/-- Where an absolute path leads does not depend on the directory it is seen from. -/
theorem find_of_isAbsolute (absolute : Path.isAbsolute path) (here here' : NodeId) :
    fs.find here path = fs.find here' path := by
  unfold find locate
  rw [startOf_of_isAbsolute absolute, startOf_of_isAbsolute absolute]

theorem rootOf_ne_relative (absolute : Path.isAbsolute path) : Path.rootOf path ≠ .relative := by
  simp only [Path.isAbsolute, decide_eq_true_eq] at absolute
  obtain ⟨rest, spelled⟩ := List.head?_eq_some_iff.1 absolute
  simp only [Path.rootOf, spelled]
  split <;> simp_all

/-- In a directory an empty name leads on to nothing else. -/
theorem walk_empty_cons {access : Access} {parent : NodeId} {own : String}
    {entries : List (String × NodeId)}
    (found : fs.node? here = some (.directory access parent own entries)) :
    fs.walk .use links here ("" :: names) = fs.walk .use links here names := by
  obtain ⟨jump, same⟩ := exists_walkWith fs .use links
  rw [same, walkWith_use_cons]
  simp only [step, found, if_true]

/-- A path that is written below a root is followed by its names. -/
theorem locate_toString {parts : List String} {access : Access} {parent : NodeId} {own : String}
    {entries : List (String × NodeId)} (grounded : top ≠ .relative)
    (named : ∀ part ∈ parts, Path.IsName part)
    (found : fs.node? root = some (.directory access parent own entries))
    (short : (Path.toString ⟨top, parts⟩).utf8ByteSize ≤ maxPath) :
    fs.locate .use here (Path.toString ⟨top, parts⟩) = fs.walk .use maxLinks root parts := by
  have written : Path.toString ⟨top, parts⟩ = top.toString ++ Text.glue '/' parts :=
    if_neg fun bare => grounded bare.1
  have absolute : Path.isAbsolute (Path.toString ⟨top, parts⟩) := by
    rw [written]
    cases top with
    | relative => exact absurd rfl grounded
    | slash => simp [Path.isAbsolute, Root.toString]
    | doubleSlash => simp [Path.isAbsolute, Root.toString]
  have nonempty : Path.toString ⟨top, parts⟩ ≠ "" := by
    intro empty
    rw [empty] at absolute
    exact absurd absolute (by decide)
  -- the slashes in front leave empty names, and nothing but one is left where there are no parts
  have lead : ∀ names, fs.walk .use maxLinks root (Path.lead top ++ names) =
      fs.walk .use maxLinks root names := by
    intro names
    cases top with
    | relative => rfl
    | slash => exact walk_empty_cons found
    | doubleSlash => exact (walk_empty_cons found).trans (walk_empty_cons found)
  unfold locate
  rw [if_neg nonempty, if_neg (Nat.not_lt_of_le short), startOf_of_isAbsolute absolute, written,
    Path.pieces_below, lead]
  by_cases bare : parts = []
  · subst bare
    exact walk_empty_cons found
  · rw [Text.pieces_glue bare fun part listed => (named part listed).2]

/-- The canonical form of an absolute path leads to where the path leads, if no name in the path
is `..` or its walk meets no link. -/
theorem find_normalize (tree : fs.IsTree) (absolute : Path.isAbsolute path)
    (plain : ".." ∉ Text.pieces '/' path ∨ fs.MeetsNoLink here path)
    (found : fs.find here path = .ok id) :
    fs.find here (Path.normalize path).toString = .ok id := by
  have located := locate_of_find found
  obtain ⟨_, short, walks⟩ := locate_of_ok located
  rw [walks, startOf_of_isAbsolute absolute] at located
  have grounded : Path.rootOf path ≠ .relative := rootOf_ne_relative absolute
  obtain ⟨access, parent, own, entries, rooted⟩ :=
    exists_directory_of_walk (Text.pieces_ne_nil '/' path) located
  apply find_of_locate
  rw [show (Path.normalize path) = ⟨Path.rootOf path, (Path.normalize path).parts⟩ from rfl,
    locate_toString grounded (Path.isName_of_mem_parts path) rooted
      (Nat.le_trans (Path.utf8ByteSize_normalize_le grounded) short)]
  rcases plain with plain | unlinked
  · rw [Path.parts_of_not_mem plain]
    exact walk_of_thins (.filter _) located
  · rw [MeetsNoLink, startOf_of_isAbsolute absolute] at unlinked
    rw [walk_of_unlinked unlinked] at located
    have stacked : Path.IsStack (Path.rootOf path) [] := trivial
    have reached := walk_foldl_push tree grounded stacked
      (fun _ => Text.not_mem_of_mem_pieces) rfl located
    rw [Path.parts_normalize, walk_of_unlinked (by simp [reached])]
    exact reached

end LineShell.FileSystem
