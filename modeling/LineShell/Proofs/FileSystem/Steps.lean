import LineShell.Execution
import LineShell.Proofs.FileSystem.Contents
import Mathlib.Logic.Relation

/-!
# The steps in which a tree changes

`FileSystem.Edit` is one change of a tree, and `FileSystem.Edits` are any number of them. All
that the shell and its children do to a tree comes to edits, also where it stops half-way
(`makeDirectories_edits`, `openTarget_edits`, `writeFile_edits`).

Main statements: an edit brings no program into a tree (`Edits.holds`), and a regular file remains
one, also when its name is taken away (`Edit.isSome_contents?`).
-/

namespace LineShell

open Relation (ReflTransGen)

namespace FileSystem

/-- One change of a tree. -/
inductive Edit (fs : FileSystem) : FileSystem → Prop
  | opened {here : NodeId} {path : String} {append : Bool} {id : NodeId} {gs : FileSystem}
      (done : fs.openToWrite here path append = .ok (id, gs)) : Edit fs gs
  | written {id : NodeId} {append : Bool} {offset offset' : Nat} {bytes : Bytes} {gs : FileSystem}
      (done : fs.writeTo id append offset bytes = .ok (offset', gs)) : Edit fs gs
  | directoryMade {here : NodeId} {path : String} {gs : FileSystem}
      (done : fs.makeDirectory here path = .ok gs) : Edit fs gs
  | removed {here : NodeId} {path : String} {gs : FileSystem}
      (done : fs.remove here path = .ok gs) : Edit fs gs
  | permitted {here : NodeId} {path : String} {access : Access} {gs : FileSystem}
      (done : fs.permit here path access = .ok gs) : Edit fs gs

/-- Any number of changes. -/
abbrev Edits : FileSystem → FileSystem → Prop :=
  ReflTransGen Edit

/-! ## Operations that change a tree more than once -/

theorem makeDirectoriesWithin_edits (fs : FileSystem) (here : NodeId) (root : Root) (room : Nat)
    (names : List String) : Edits fs (fs.makeDirectoriesWithin here root room names).1 := by
  induction names generalizing room with
  | nil => cases room <;> exact .refl
  | cons name above ih =>
    cases room with
    | zero => exact .refl
    | succ room =>
      unfold makeDirectoriesWithin
      extract_lets path before
      have made : Edits fs before.1 := by
        unfold before
        split
        · exact .refl
        · -- whether a name on the way exists makes no difference to the tree
          have directories := ih room
          split <;> simp_all
      obtain ⟨gs, outcome⟩ := before
      cases outcome with
      | error fault => exact made
      | ok _ =>
        dsimp only
        cases done : gs.makeDirectory here path with
        | ok hs => exact made.tail (.directoryMade done)
        | error fault => exact made

theorem makeDirectories_edits (fs : FileSystem) (here : NodeId) (root : Root)
    (names : List String) : Edits fs (fs.makeDirectories here root names).1 :=
  fs.makeDirectoriesWithin_edits here root maxMissing names

theorem openTarget_edits (fs : FileSystem) (here : NodeId) (path : Path) (append : Bool) :
    Edits fs (fs.openTarget here path append).1 := by
  have made := fs.makeDirectories_edits here path.root path.parts.reverse.tail
  unfold openTarget
  generalize fs.makeDirectories here path.root path.parts.reverse.tail = result at made ⊢
  obtain ⟨gs, outcome⟩ := result
  cases outcome with
  | error fault => exact made
  | ok _ =>
    dsimp only
    cases done : gs.openToWrite here path.toString append with
    | error fault => exact made
    | ok opened => exact made.tail (.opened done)

/-! ## Programs -/

/-- Some file of the tree holds the program. -/
def Holds (fs : FileSystem) (program : Program) : Prop :=
  ∃ id access data, fs.node? id = some (.file access data (some program))

variable {fs gs : FileSystem} {program : Program}

/-- A node that is put into a tree brings no program but its own. -/
theorem Holds.of_put {id : NodeId} {node : Node} (held : (fs.put id node).Holds program)
    (kept : ∀ access data, node = .file access data (some program) → fs.Holds program) :
    fs.Holds program := by
  obtain ⟨other, access, data, found⟩ := held
  by_cases inside : id < fs.next
  · by_cases same : other = id
    · subst same
      rw [node?_put_self node inside] at found
      exact kept access data (Option.some.inj found)
    · rw [node?_put_of_ne node same] at found
      exact ⟨other, access, data, found⟩
  · rw [put_eq_self (Nat.le_of_not_lt inside)] at found
    exact ⟨other, access, data, found⟩

theorem Holds.of_addIn {dir : NodeId} {name : String} {node : Node}
    (held : (fs.addIn dir name node).Holds program)
    (plain : ∀ access data, node ≠ .file access data (some program)) : fs.Holds program := by
  unfold addIn at held
  split at held
  · obtain ⟨id, access, data, found⟩ := held.of_put (by rintro _ _ ⟨⟩)
    rw [node?_add] at found
    split at found
    · exact absurd (Option.some.inj found) (plain access data)
    · exact ⟨id, access, data, found⟩
  · exact held

/-- What a changed tree holds, the tree held before. -/
theorem Edit.holds (edit : Edit fs gs) (held : gs.Holds program) : fs.Holds program := by
  cases edit with
  | opened done =>
    unfold openToWrite at done
    repeat' split at done
    all_goals cases done
    · exact held.of_addIn (by rintro _ _ ⟨⟩)
    · exact held
    · exact held.of_put (by rintro _ _ ⟨⟩)
    · exact held
  | written done =>
    unfold writeTo at done
    split at done
    · rename_i found
      split at done
      · cases done
        exact held
      · cases done
        refine held.of_put fun access data same => ?_
        cases same
        exact ⟨_, _, _, found⟩
    · split at done
      · cases done
        exact held
      · cases done
    · cases done
      exact held
  | directoryMade done =>
    unfold makeDirectory at done
    repeat' split at done
    all_goals cases done
    exact held.of_addIn (by rintro _ _ ⟨⟩)
  | removed done =>
    unfold remove at done
    repeat' split at done
    all_goals cases done
    exact held.of_put (by rintro _ _ ⟨⟩)
  | permitted done =>
    unfold permit at done
    split at done
    all_goals cases done
    unfold permitNode at held
    split at held
    · rename_i found
      refine held.of_put fun access data same => ?_
      cases same
      exact ⟨_, _, _, found⟩
    · exact held.of_put (by rintro _ _ ⟨⟩)
    · exact held

theorem Edits.holds (edits : Edits fs gs) (held : gs.Holds program) : fs.Holds program := by
  induction edits with
  | refl => exact held
  | tail _ edit ih => exact ih (edit.holds held)

/-! ## Regular files -/

variable {id : NodeId}

/-- A regular file remains one where no other node is put in its place. -/
theorem isSome_contents?_put {other : NodeId} {node : Node}
    (same : id = other → ∃ access data program, node = .file access data program)
    (regular : (fs.contents? id).isSome) : ((fs.put other node).contents? id).isSome := by
  by_cases equal : id = other
  · obtain ⟨access, data, program, rfl⟩ := same equal
    obtain ⟨bytes, holds⟩ := Option.isSome_iff_exists.1 regular
    obtain ⟨_, _, found⟩ := contents?_eq_some_iff.1 holds
    rw [← equal]
    simp [contents?, node?_put_self _ (lt_next_of_node? found)]
  · simpa [contents?, node?_put_of_ne node equal] using regular

theorem ne_of_directory {access : Access} {parent : NodeId} {own : String}
    {entries : List (String × NodeId)} {dir : NodeId}
    (found : fs.node? dir = some (.directory access parent own entries))
    (regular : (fs.contents? id).isSome) : id ≠ dir := by
  rintro rfl
  simp [contents?, found] at regular

theorem isSome_contents?_addIn (dir : NodeId) (name : String) (node : Node)
    (regular : (fs.contents? id).isSome) : ((fs.addIn dir name node).contents? id).isSome := by
  unfold addIn
  split
  case h_1 access parent own entries found =>
    have added : ((fs.add node).contents? id).isSome := by
      obtain ⟨bytes, holds⟩ := Option.isSome_iff_exists.1 regular
      obtain ⟨_, _, there⟩ := contents?_eq_some_iff.1 holds
      have old : id ≠ fs.next := Nat.ne_of_lt (lt_next_of_node? there)
      simpa [contents?, node?_add, old] using regular
    exact isSome_contents?_put (fun same => absurd same (ne_of_directory found regular)) added
  case h_2 => exact regular

/-- No edit turns a regular file into anything else. -/
theorem Edit.isSome_contents? (edit : Edit fs gs) (regular : (fs.contents? id).isSome) :
    (gs.contents? id).isSome := by
  cases edit with
  | opened done =>
    unfold openToWrite at done
    repeat' split at done
    all_goals cases done
    · exact isSome_contents?_addIn _ _ _ regular
    · exact regular
    · exact isSome_contents?_put (fun _ => ⟨_, _, _, rfl⟩) regular
    · exact regular
  | written done =>
    unfold writeTo at done
    split at done
    · split at done
      · cases done
        exact regular
      · cases done
        exact isSome_contents?_put (fun _ => ⟨_, _, _, rfl⟩) regular
    · split at done
      · cases done
        exact regular
      · cases done
    · cases done
      exact regular
  | directoryMade done =>
    unfold makeDirectory at done
    repeat' split at done
    all_goals cases done
    exact isSome_contents?_addIn _ _ _ regular
  | removed done =>
    unfold remove at done
    repeat' split at done
    all_goals cases done
    rename_i found _
    exact isSome_contents?_put (fun same => absurd same (ne_of_directory found regular)) regular
  | permitted done =>
    unfold permit at done
    split at done
    all_goals cases done
    unfold permitNode
    split
    · exact isSome_contents?_put (fun _ => ⟨_, _, _, rfl⟩) regular
    · rename_i found
      exact isSome_contents?_put (fun same => absurd same (ne_of_directory found regular)) regular
    · exact regular

end FileSystem

namespace Child

theorem writeFile_edits {fs gs : FileSystem} {here : NodeId} {path text : String}
    (done : writeFile fs here path text = .ok gs) : fs.Edits gs := by
  unfold writeFile at done
  cases opened : fs.openToWrite here path false with
  | error fault => simp [opened, bind, Except.bind] at done
  | ok pair =>
    obtain ⟨id, hs⟩ := pair
    simp only [opened, bind, Except.bind] at done
    split at done
    · rename_i written
      cases done
      exact (ReflTransGen.single (.opened opened)).tail (.written written)
    · cases done

end Child

end LineShell
