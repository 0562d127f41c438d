import LineShell.FileSystem.Setup
import LineShell.Proofs.FileSystem.Steps

/-!
# Directories and what they are in

A directory knows the directory that it is in, and that one has a name for it. In a
`FileSystem.IsTree` both agree, so `..` leads back to where a walk came from.

Main statements: every tree that is set up is one (`isTree_furnish`), and it remains one whatever
the shell and its children do to it (`IsTree.edits`).
-/

namespace LineShell.FileSystem

open Relation (ReflTransGen)

/-- The directory `id` is in the directory `parent`, as it knows itself. -/
def IsIn (fs : FileSystem) (id parent : NodeId) : Prop :=
  ∃ access own entries, fs.node? id = some (.directory access parent own entries)

/-- The directory `dir` has a name for `id`. -/
def Names (fs : FileSystem) (dir id : NodeId) : Prop :=
  ∃ access parent own entries, fs.node? dir = some (.directory access parent own entries) ∧
    id ∈ entries.map (·.2)

/-- The root is in itself, each name is for a node that there is, each directory is in a node that
there is, and it is in the one that has a name for it. -/
structure IsTree (fs : FileSystem) : Prop where
  top : ∀ {parent}, fs.IsIn root parent → parent = root
  named : ∀ {dir id}, fs.Names dir id → id < fs.next
  homed : ∀ {id parent}, fs.IsIn id parent → parent < fs.next
  inside : ∀ {dir id parent}, fs.Names dir id → fs.IsIn id parent → parent = dir

namespace IsTree

variable {fs gs : FileSystem} {id dir : NodeId} {node : Node}

/-! ## One change -/

/-- The tree remains one where a node is replaced by one that is no directory, or by a directory
in the same place with no more names. -/
theorem put (tree : fs.IsTree)
    (fewer : ∀ {access parent own entries}, node = .directory access parent own entries →
      fs.IsIn id parent ∧ ∀ other ∈ entries.map (·.2), fs.Names id other) :
    (fs.put id node).IsTree := by
  have isIn : ∀ {other parent}, (fs.put id node).IsIn other parent → fs.IsIn other parent := by
    rintro other parent ⟨access, own, entries, found⟩
    by_cases inBounds : id < fs.next
    · by_cases same : other = id
      · subst same
        rw [node?_put_self node inBounds] at found
        exact (fewer (Option.some.inj found)).1
      · rw [node?_put_of_ne node same] at found
        exact ⟨access, own, entries, found⟩
    · rw [put_eq_self (Nat.le_of_not_lt inBounds)] at found
      exact ⟨access, own, entries, found⟩
  have names : ∀ {dir other}, (fs.put id node).Names dir other → fs.Names dir other := by
    rintro dir other ⟨access, parent, own, entries, found, listed⟩
    by_cases inBounds : id < fs.next
    · by_cases same : dir = id
      · subst same
        rw [node?_put_self node inBounds] at found
        exact (fewer (Option.some.inj found)).2 other listed
      · rw [node?_put_of_ne node same] at found
        exact ⟨access, parent, own, entries, found, listed⟩
    · rw [put_eq_self (Nat.le_of_not_lt inBounds)] at found
      exact ⟨access, parent, own, entries, found, listed⟩
  exact ⟨fun is => tree.top (isIn is), fun has => next_put fs id node ▸ tree.named (names has),
    fun is => next_put fs id node ▸ tree.homed (isIn is),
    fun has is => tree.inside (names has) (isIn is)⟩

/-- What is put in the place of a file or a link is no directory. -/
theorem put_plain (tree : fs.IsTree)
    (plain : ∀ access parent own entries, node ≠ .directory access parent own entries) :
    (fs.put id node).IsTree :=
  tree.put fun same => absurd same (plain _ _ _ _)

/-- The tree remains one where a directory gets a name for a new node, which is no directory or
one that is in it and has no names. -/
theorem addIn {name : String} (tree : fs.IsTree)
    (bare : ∀ {access parent own entries}, node = .directory access parent own entries →
      parent = dir ∧ entries = []) : (fs.addIn dir name node).IsTree := by
  unfold FileSystem.addIn
  split
  case h_2 => exact tree
  case h_1 access parent own entries found =>
    have old : dir < (fs.add node).next := by
      simpa using Nat.lt_succ_of_lt (lt_next_of_node? found)
    have other : dir ≠ fs.next := Nat.ne_of_lt (lt_next_of_node? found)
    -- the new node knows where it is, and nothing else has moved
    have isIn : ∀ {id parent'}, ((fs.add node).put dir (.directory access parent own
          (entries ++ [(name, fs.next)]))).IsIn id parent' →
        fs.IsIn id parent' ∨ id = fs.next ∧ parent' = dir := by
      rintro id parent' ⟨access', own', entries', found'⟩
      by_cases same : id = dir
      · subst same
        rw [node?_put_self _ old] at found'
        cases found'
        exact .inl ⟨access, own, entries, found⟩
      · rw [node?_put_of_ne _ same, node?_add] at found'
        split at found'
        case isTrue new => exact .inr ⟨new, (bare (Option.some.inj found')).1⟩
        case isFalse => exact .inl ⟨access', own', entries', found'⟩
    have names : ∀ {dir' id}, ((fs.add node).put dir (.directory access parent own
          (entries ++ [(name, fs.next)]))).Names dir' id →
        fs.Names dir' id ∨ id = fs.next ∧ dir' = dir := by
      rintro dir' id ⟨access', parent', own', entries', found', listed⟩
      by_cases same : dir' = dir
      · subst same
        rw [node?_put_self _ old] at found'
        cases found'
        simp only [List.map_append, List.map_cons, List.map_nil, List.mem_append,
          List.mem_singleton] at listed
        exact listed.imp (fun listed => ⟨access, parent, own, entries, found, listed⟩)
          fun new => ⟨new, rfl⟩
      · rw [node?_put_of_ne _ same, node?_add] at found'
        split at found'
        case isTrue =>
          rw [(bare (Option.some.inj found')).2] at listed
          cases listed
        case isFalse => exact .inl ⟨access', parent', own', entries', found', listed⟩
    have fresh : ¬ ∃ dir', fs.Names dir' fs.next := by
      rintro ⟨dir', has⟩
      exact Nat.lt_irrefl _ (tree.named has)
    refine ⟨fun is => ?_, fun has => ?_, fun is => ?_, fun has is => ?_⟩
    · rcases isIn is with before | ⟨new, _⟩
      · exact tree.top before
      · have root_old : fs.next ≠ root :=
          Nat.ne_of_gt (Nat.lt_of_le_of_lt (Nat.zero_le dir) (lt_next_of_node? found))
        exact absurd new.symm root_old
    · rw [next_put, next_add]
      rcases names has with before | ⟨rfl, _⟩
      · exact Nat.lt_succ_of_lt (tree.named before)
      · exact Nat.lt_succ_self _
    · rw [next_put, next_add]
      rcases isIn is with before | ⟨_, rfl⟩
      · exact Nat.lt_succ_of_lt (tree.homed before)
      · exact Nat.lt_succ_of_lt (lt_next_of_node? found)
    · rcases names has with before | ⟨rfl, rfl⟩
      · rcases isIn is with is | ⟨rfl, _⟩
        · exact tree.inside before is
        · exact absurd ⟨_, before⟩ fresh
      · rcases isIn is with ⟨_, _, _, is⟩ | ⟨_, rfl⟩
        · rw [node?_eq_none (Nat.le_refl _)] at is
          cases is
        · rfl

/-! ## Edits -/

theorem permitNode (tree : fs.IsTree) (id : NodeId) (access : Access) :
    (fs.permitNode id access).IsTree := by
  unfold FileSystem.permitNode
  split
  · exact tree.put_plain (by simp)
  · rename_i found
    apply tree.put
    rintro _ _ _ _ ⟨⟩
    exact ⟨⟨_, _, _, found⟩, fun other listed => ⟨_, _, _, _, found, listed⟩⟩
  · exact tree

theorem edit (tree : fs.IsTree) (edit : fs.Edit gs) : gs.IsTree := by
  cases edit with
  | opened done =>
    unfold openToWrite at done
    repeat' split at done
    all_goals cases done
    · exact tree.addIn (by simp)
    · exact tree
    · exact tree.put_plain (by simp)
    · exact tree
  | written done =>
    unfold writeTo at done
    repeat' split at done
    all_goals cases done
    · exact tree
    · exact tree.put_plain (by simp)
    · exact tree.put_plain (by simp)
    · exact tree
    · exact tree
  | directoryMade done =>
    unfold makeDirectory at done
    repeat' split at done
    all_goals cases done
    apply tree.addIn
    rintro _ _ _ _ ⟨⟩
    exact ⟨rfl, rfl⟩
  | removed done =>
    unfold remove at done
    repeat' split at done
    all_goals cases done
    rename_i found _
    apply tree.put
    rintro _ _ _ _ ⟨⟩
    -- of the names some are left
    refine ⟨⟨_, _, _, found⟩, fun other listed => ⟨_, _, _, _, found, ?_⟩⟩
    obtain ⟨entry, kept, rfl⟩ := List.mem_map.1 listed
    exact List.mem_map_of_mem (List.mem_filter.1 kept).1
  | permitted done =>
    unfold permit at done
    split at done
    all_goals cases done
    exact tree.permitNode _ _

theorem edits (tree : fs.IsTree) (edits : fs.Edits gs) : gs.IsTree := by
  induction edits with
  | refl => exact tree
  | tail _ edit ih => exact ih.edit edit

/-! ## Trees that are set up -/

theorem carryOut (tree : fs.IsTree) (plan : Plan) : (fs.carryOut plan).1.IsTree := by
  have way : ∀ path, (fs.makeWay path).IsTree := fun path =>
    tree.edits (fs.makeDirectories_edits _ _ _)
  have file : ∀ {path append id gs} node,
      (∀ access parent own entries, node ≠ .directory access parent own entries) →
      (fs.makeWay (Path.normalize path)).openToWrite workplace path append = .ok (id, gs) →
      (gs.put id node).IsTree := fun node plain done =>
    ((way _).edit (.opened done)).put_plain plain
  cases plan with
  | directory path access => exact tree.edits (fs.makeDirectories_edits _ _ _)
  | file path data access =>
    unfold FileSystem.carryOut
    dsimp only
    split
    · exact file _ (by simp) ‹_›
    · exact way _
  | link path target =>
    unfold FileSystem.carryOut
    dsimp only
    split
    · exact (way _).addIn (by simp)
    · exact way _
  | program path actions access =>
    unfold FileSystem.carryOut
    dsimp only
    split
    · exact file _ (by simp) ‹_›
    · exact way _

theorem furnish (tree : fs.IsTree) (plans : List Plan) : (fs.furnish plans).IsTree := by
  unfold FileSystem.furnish
  -- the plans are carried out first, and then the permissions are set
  apply List.foldlRecOn
  · refine List.foldlRecOn (motive := fun made : FileSystem × List (NodeId × Access) =>
      made.1.IsTree) plans _ tree ?_
    exact fun _ tree plan _ => tree.carryOut plan
  · exact fun _ tree permission _ => tree.permitNode permission.1 permission.2

end IsTree

/-- Where nothing has been set up all directories are in the root, and only some nodes that are no
directories have their names elsewhere. -/
theorem isTree_initial (name : String) : (initial name).IsTree := by
  have isIn : ∀ {id parent}, (initial name).IsIn id parent →
      parent = root ∧ id ∈ [root, 1, 4, workplace] := by
    rintro id parent ⟨access, own, entries, found⟩
    match id, (lt_next_of_node? found : id < 7) with
    | 2, _ | 3, _ | 5, _ => cases found
    | 0, _ | 1, _ | 4, _ | 6, _ =>
      cases found
      exact ⟨rfl, by decide⟩
  have names : ∀ {dir id}, (initial name).Names dir id →
      id < 7 ∧ (dir = root ∨ id ∉ [root, 1, 4, workplace]) := by
    rintro dir id ⟨access, parent, own, entries, found, listed⟩
    match dir, (lt_next_of_node? found : dir < 7) with
    | 2, _ | 3, _ | 5, _ => cases found
    | 6, _ =>
      cases found
      cases listed
    | 0, _ | 1, _ | 4, _ =>
      cases found
      simp only [List.map_cons, List.map_nil, List.mem_cons, List.not_mem_nil, or_false] at listed
      rcases listed with rfl | rfl | rfl <;> decide
  have rooted : root < (initial name).next := Nat.zero_lt_succ 6
  refine ⟨fun is => (isIn is).1, fun has => (names has).1, fun is => (isIn is).1 ▸ rooted,
    fun has is => ?_⟩
  rcases (names has).2 with rfl | plain
  · exact (isIn is).1
  · exact absurd (isIn is).2 plain

/-- Every tree that is set up by plans is one. -/
theorem isTree_furnish (name : String) (plans : List Plan) :
    ((initial name).furnish plans).IsTree :=
  (isTree_initial name).furnish plans

end LineShell.FileSystem
