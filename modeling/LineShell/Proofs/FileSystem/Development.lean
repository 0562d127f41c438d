import LineShell.FileSystem.Edit
import LineShell.Proofs.FileSystem.Growth

/-!
# What becomes of a tree

`FileSystem.Develops` bounds all that happens to a tree: only certain files hold something else,
and what is new is one of these files or a directory that was missing at one of certain paths.

Main statements: making directories on the way to a file (`makeDirectoriesWithin_develops`) and
writing to a file (`writeTo_develops`) are developments, and so is one development after the
other (`Develops.trans`).
-/

namespace LineShell.FileSystem

variable {here : NodeId} {ways ways' : String → Prop} {files files' : NodeId → Prop}
  {fs gs hs : FileSystem}

/-- The tree `gs` has grown out of `fs`, as seen from the directory `here`: of the files that were
there only `files` may hold something else, and each new node is a file of these or a directory at
one of the paths `ways`, which led nowhere. -/
structure Develops (here : NodeId) (ways : String → Prop) (files : NodeId → Prop)
    (fs gs : FileSystem) : Prop extends Grows fs gs where
  spared : ∀ {id access data program}, fs.node? id = some (.file access data program) →
    ¬ files id → gs.node? id = some (.file access data program)
  made : ∀ {id}, fs.next ≤ id → id < gs.next →
    (files id ∧ ∃ access data program, gs.node? id = some (.file access data program)) ∨
    ((∃ access parent own entries, gs.node? id = some (.directory access parent own entries)) ∧
      ∃ path, ways path ∧ (∀ other, fs.find here path ≠ .ok other) ∧ gs.find here path = .ok id)

namespace Develops

theorem refl (fs : FileSystem) : Develops here ways files fs fs where
  toGrows := .refl fs
  spared found _ := found
  made outside inside := absurd inside (Nat.not_lt_of_le outside)

theorem mono (h : Develops here ways files fs gs) (ways_sub : ∀ path, ways path → ways' path)
    (files_sub : ∀ id, files id → files' id) : Develops here ways' files' fs gs where
  toGrows := h.toGrows
  spared found free := h.spared found fun listed => free (files_sub _ listed)
  made outside inside := by
    rcases h.made outside inside with ⟨listed, file⟩ | ⟨directory, path, way, missing, found⟩
    · exact .inl ⟨files_sub _ listed, file⟩
    · exact .inr ⟨directory, path, ways_sub path way, missing, found⟩

/-- Where only directories are made, it does not matter which files may be written to. -/
theorem of_directories (h : Develops here ways (fun _ => False) fs gs) :
    Develops here ways files fs gs :=
  h.mono (fun _ way => way) fun _ nothing => nothing.elim

theorem trans (h : Develops here ways files fs gs) (h' : Develops here ways files gs hs) :
    Develops here ways files fs hs where
  toGrows := h.toGrows.trans h'.toGrows
  spared found free := h'.spared (h.spared found free) free
  made {id} outside inside := by
    by_cases old : id < gs.next
    · -- made in between, and still what it was then
      rcases h.made outside old with ⟨listed, access, data, program, file⟩ |
        ⟨⟨access, parent, own, entries, directory⟩, path, way, missing, found⟩
      · obtain ⟨node, after, grown⟩ := h'.grown file
        cases grown
        exact .inl ⟨listed, _, _, _, after⟩
      · obtain ⟨more, after⟩ := h'.directory directory
        exact .inr ⟨⟨_, _, _, _, after⟩, path, way, missing, h'.find found⟩
    · -- what is missing later was missing before
      rcases h'.made (Nat.le_of_not_lt old) inside with
        file | ⟨directory, path, way, missing, found⟩
      · exact .inl file
      · exact .inr ⟨directory, path, way, fun other led => missing other (h.find led), found⟩

/-- A file that may not be written to holds what it held, and so does what is no file. -/
theorem contents?_eq (h : Develops here ways files fs gs) {id : NodeId} (free : ¬ files id) :
    gs.contents? id = fs.contents? id := by
  unfold contents?
  by_cases old : id < fs.next
  · obtain ⟨node, before⟩ := exists_node? old
    obtain ⟨node', after, grown⟩ := h.grown before
    rw [before, after]
    cases grown with
    | file data' program' =>
      rw [h.spared before free] at after
      cases after
      rfl
    | directory more fresh => rfl
    | link target => rfl
    | device device => rfl
  · have outside := Nat.le_of_not_lt old
    rw [node?_eq_none outside]
    by_cases inside : id < gs.next
    · rcases h.made outside inside with ⟨listed, _⟩ | ⟨⟨_, _, _, _, directory⟩, _⟩
      · exact absurd listed free
      · rw [directory]
    · rw [node?_eq_none (Nat.le_of_not_lt inside)]

/-- A tree in which nothing may be made or written to is as it was. -/
theorem eq_of_nothing (h : Develops here (fun _ => False) (fun _ => False) fs gs) : gs = fs := by
  -- there are no new nodes, so no directory has got a name for one
  have next : gs.next = fs.next := by
    refine Nat.le_antisymm (Nat.le_of_not_lt fun more => ?_) h.next
    rcases h.made (Nat.le_refl _) more with ⟨nothing, _⟩ | ⟨_, _, nothing, _⟩
    · exact nothing
    · exact nothing
  apply ext_node?
  intro id
  by_cases old : id < fs.next
  · obtain ⟨node, before⟩ := exists_node? old
    obtain ⟨node', after, grown⟩ := h.grown before
    rw [before, after]
    cases grown with
    | file data' program' => rw [← after, h.spared before not_false]
    | @directory access parent own entries more fresh =>
      cases more with
      | nil => rw [List.append_nil]
      | cons entry others =>
        obtain ⟨absent, new⟩ := fresh entry (.head _)
        have listed : gs.Lists id entry.1 entry.2 :=
          ⟨access, parent, own, _, after, by rw [List.lookup_append, absent, Option.none_or, new]⟩
        rcases h.names listed with ⟨low, high⟩ | ⟨_, _, _, _, before', listed'⟩
        · exact absurd (next ▸ high) (Nat.not_lt_of_le low)
        · rw [before] at before'
          cases before'
          rw [absent] at listed'
          cases listed'
    | link target => rfl
    | device device => rfl
  · have outside := Nat.le_of_not_lt old
    rw [node?_eq_none outside, node?_eq_none (next ▸ outside)]

end Develops

/-! ## One change -/

/-- Writing to a file changes what this file holds. -/
theorem put_develops {id : NodeId} {access : Access} {data : Array UInt8} {program : Option Program}
    (file : fs.node? id = some (.file access data program)) (data' : Array UInt8)
    (program' : Option Program) :
    Develops here ways (· = id) fs (fs.put id (.file access data' program')) where
  toGrows := .put file data' program'
  spared found different := by rw [node?_put_of_ne _ different, found]
  made outside inside := absurd (by simpa using inside) (Nat.not_lt_of_le outside)

/-- What is added where a path ended is a file that may be new, or a directory at that path. -/
theorem addIn_develops {path : String} {dir : NodeId} {name : String} {node : Node}
    (bare : node.IsBare) (missing : fs.locate .use here path = .ok (.vacant dir name))
    (file : ∀ access data program, node = .file access data program → files fs.next)
    (directory : ∀ access parent own entries, node = .directory access parent own entries →
      ways path) : Develops here ways files fs (fs.addIn dir name node) where
  toGrows := .addIn bare (lacks_of_locate missing)
  spared {id access data program} found _ := by
    obtain ⟨_, _, _, _, parent, _⟩ := lacks_of_locate missing
    have different : id ≠ dir := by
      rintro rfl
      rw [found] at parent
      cases parent
    rw [node?_addIn_of_ne different (Nat.ne_of_lt (lt_next_of_node? found)), found]
  made {id} outside inside := by
    have lacks := lacks_of_locate missing
    rw [next_addIn lacks] at inside
    obtain rfl : id = fs.next := Nat.le_antisymm (Nat.le_of_lt_succ inside) outside
    have self := node?_addIn_self lacks node
    have found := find_addIn bare missing
    cases bare with
    | file access data program => exact .inl ⟨file _ _ _ rfl, _, _, _, self⟩
    | directory access parent own =>
      refine .inr ⟨⟨_, _, _, _, self⟩, path, directory _ _ _ _ rfl, fun other led => ?_, found⟩
      rw [locate_of_find led] at missing
      cases missing

/-! ## Writing -/

theorem withContents_develops (fs : FileSystem) (id : NodeId) (bytes : Bytes) :
    Develops here ways (· = id) fs (fs.withContents id bytes) := by
  unfold withContents
  split
  case h_1 access data program file => exact put_develops file _ program
  case h_2 => exact .refl fs

theorem writeTo_develops {id : NodeId} {append : Bool} {offset offset' : Nat} {bytes : Bytes}
    (done : fs.writeTo id append offset bytes = .ok (offset', gs)) :
    Develops here ways (· = id) fs gs := by
  unfold writeTo at done
  split at done
  case h_1 access data program file =>
    split at done
    · cases done
      exact .refl fs
    · cases done
      exact put_develops file _ program
  case h_2 =>
    split at done
    · cases done
      exact .refl fs
    · cases done
  case h_3 =>
    cases done
    exact .refl fs

/-! ## Making directories -/

theorem makeDirectory_develops {path : String} (way : ways path)
    (done : fs.makeDirectory here path = .ok gs) : Develops here ways files fs gs := by
  unfold makeDirectory at done
  split at done
  · cases done
  cases located : fs.locate .entry here path with
  | error e => simp [located] at done
  | ok landing =>
    rw [located] at done
    cases landing with
    | node id => cases done
    | vacant dir name =>
      dsimp only at done
      split at done
      · cases done
        -- the name is missing also for those who would follow a link
        have missing := locate_use_of_locate (by simp) located
        exact addIn_develops (.directory fullAccess dir name) missing (by simp) fun _ _ _ _ _ => way
      · cases done

/-- Directories are made only where they are missing, also if they are not all made. -/
theorem makeDirectoriesWithin_develops {root : Root} (room : Nat) {names : List String}
    (onWay : ∀ above, above ≠ [] → above <:+ names → ways (Path.toString ⟨root, above.reverse⟩)) :
    Develops here ways files fs (fs.makeDirectoriesWithin here root room names).1 := by
  induction names generalizing room with
  | nil => cases room <;> exact .refl fs
  | cons name above ih =>
    cases room with
    | zero => exact .refl fs
    | succ room =>
      unfold makeDirectoriesWithin
      extract_lets path before
      have made : Develops here ways files fs before.1 := by
        unfold before
        split
        · exact .refl fs
        · have directories := ih room fun some nonempty suffix =>
            onWay some nonempty (suffix.trans (List.suffix_cons name above))
          split <;> simp_all
      obtain ⟨gs, outcome⟩ := before
      cases outcome with
      | error fault => exact made
      | ok _ =>
        dsimp only
        cases done : gs.makeDirectory here path with
        | ok hs =>
          have way : ways path := onWay _ (List.cons_ne_nil name above) List.suffix_rfl
          exact made.trans (makeDirectory_develops way done)
        | error fault => exact made

end LineShell.FileSystem
