import LineShell.Proofs.FileSystem.Development
import LineShell.Proofs.Redirection.Opening

/-!
# What opening the file of a redirection does

Whether the file was there or not and whether it can be opened or not: all that happens to the
tree is that directories are made on the way to it and that it is made or emptied
(`FileSystem.Opens`, `World.Tries`).

Main statement: `openRedirect_tries`, which lists the ways in which the opening can end.
-/

namespace LineShell

/-- The text is the path of a directory on the way to what `path` names. -/
def Path.IsBelow (path : Path) (text : String) : Prop :=
  ∃ names more, names ≠ [] ∧ more ≠ [] ∧ path.parts = names ++ more ∧
    text = Path.toString ⟨path.root, names⟩

namespace FileSystem

variable {here id : NodeId} {ways : String → Prop} {files : NodeId → Prop} {path : String}
  {append : Bool} {fs mid gs : FileSystem}

/-- A file is open for writing: the path leads to a regular file, which holds what it held or
nothing, or it leads to a device. Directories were made only at the paths `ways`. -/
inductive Opens (fs : FileSystem) (here : NodeId) (ways : String → Prop) (path : String)
    (append : Bool) : NodeId → FileSystem → Prop
  | file {id : NodeId} {gs : FileSystem} (develops : Develops here ways (· = id) fs gs)
      (leads : gs.LeadsTo here path id)
      (holds : gs.contents? id = some (if append then (fs.contents? id).getD [] else [])) :
      Opens fs here ways path append id gs
  | device {id : NodeId} {gs : FileSystem} {device : Device}
      (develops : Develops here ways (fun _ => False) fs gs) (found : gs.find here path = .ok id)
      (isDevice : gs.node? id = some (.device device)) : Opens fs here ways path append id gs

namespace Opens

theorem develops (opens : fs.Opens here ways path append id gs) :
    Develops here ways (· = id) fs gs := by
  cases opens with
  | file develops => exact develops
  | device develops => exact develops.of_directories

theorem find (opens : fs.Opens here ways path append id gs) : gs.find here path = .ok id := by
  cases opens with
  | file _ leads => exact leads.found
  | device _ found => exact found

/-- Directories are made before a file is opened. -/
theorem after (made : Develops here ways (fun _ => False) fs mid)
    (opens : mid.Opens here ways path append id gs) : fs.Opens here ways path append id gs := by
  cases opens with
  | file develops leads holds =>
    rw [made.contents?_eq not_false] at holds
    exact .file (made.of_directories.trans develops) leads holds
  | device develops found isDevice => exact .device (made.trans develops) found isDevice

end Opens

theorem openToWrite_opens (done : fs.openToWrite here path append = .ok (id, gs)) :
    ¬ holdsNull path ∧ fs.Opens here ways path append id gs := by
  unfold openToWrite at done
  by_cases null : holdsNull path
  · simp [null] at done
  refine ⟨null, ?_⟩
  rw [if_neg null] at done
  cases located : fs.locate .write here path with
  | error e => simp [located] at done
  | ok landing =>
    have landed := locate_use_of_locate (by simp) located
    rw [located] at done
    cases landing with
    | vacant dir name =>
      dsimp only at done
      split at done
      · -- a new file holds nothing, and neither did it before
        cases done
        have bare : (Node.file fileAccess #[] none).IsBare := .file _ _ _
        have self := node?_addIn_self (lacks_of_locate landed) (.file fileAccess #[] none)
        have nothing : fs.contents? fs.next = none := by
          simp [contents?, node?_eq_none (Nat.le_refl fs.next)]
        refine .file (addIn_develops bare landed (fun _ _ _ _ => rfl) (by simp))
          ⟨find_addIn bare landed, _, _, _, self, rfl⟩ ?_
        rw [nothing]
        simp [contents?, self]
      · cases done
    | node id' =>
      have found := find_of_locate landed
      dsimp only at done
      cases there : fs.node? id' with
      | none => simp [there] at done
      | some node =>
        rw [there] at done
        cases node with
        | file access data program =>
          dsimp only at done
          split at done
          · cases done
          case isFalse allowed =>
            have writable : access.write = true := by simpa using allowed
            split at done
            case isTrue appends =>
              cases done
              refine .file (.refl fs) ⟨found, _, _, _, there, writable⟩ ?_
              simp [contents?, there, appends]
            case isFalse empties =>
              cases done
              have self := node?_put_self (.file access #[] none) (lt_next_of_node? there)
              refine .file (put_develops there #[] none)
                ⟨(Grows.put there #[] none).find found, _, _, _, self, writable⟩ ?_
              simp [contents?, self, empties]
        | device device =>
          cases done
          exact .device (.refl fs) found there
        | directory => cases done
        | link => cases done

/-! ## The directories on the way -/

theorem makeDirectories_develops (fs : FileSystem) (here : NodeId) (path : Path) :
    Develops here path.IsBelow files fs
      (fs.makeDirectories here path.root path.parts.reverse.tail).1 := by
  apply makeDirectoriesWithin_develops
  intro above nonempty suffix
  cases reversed : path.parts.reverse with
  | nil =>
    rw [reversed] at suffix
    exact absurd (List.suffix_nil.1 suffix) nonempty
  | cons last others =>
    rw [reversed] at suffix
    obtain ⟨nearer, rfl⟩ := suffix
    have parts : path.parts = above.reverse ++ (last :: nearer).reverse := by
      rw [← List.reverse_append, List.cons_append, ← reversed, List.reverse_reverse]
    exact ⟨above.reverse, (last :: nearer).reverse, by simpa using nonempty, by simp, parts, rfl⟩

/-- What opening the file of a redirection does to a tree, also if it fails. -/
theorem openTarget_opens {path : Path} {outcome : Except Fault NodeId}
    (tried : fs.openTarget here path append = (gs, outcome)) :
    (∃ id, outcome = .ok id ∧ ¬ holdsNull path.toString ∧
      fs.Opens here path.IsBelow path.toString append id gs) ∨
    ∃ fault, outcome = .error fault ∧ Develops here path.IsBelow (fun _ => False) fs gs := by
  have made : Develops here path.IsBelow (fun _ => False) fs
      (fs.makeDirectories here path.root path.parts.reverse.tail).1 :=
    makeDirectories_develops fs here path
  unfold openTarget at tried
  generalize fs.makeDirectories here path.root path.parts.reverse.tail = before at made tried
  obtain ⟨mid, directories⟩ := before
  cases directories with
  | error fault =>
    cases tried
    exact .inr ⟨fault, rfl, made⟩
  | ok _ =>
    dsimp only at made tried
    cases opened : mid.openToWrite here path.toString append with
    | error fault =>
      rw [opened] at tried
      cases tried
      exact .inr ⟨fault, rfl, made⟩
    | ok result =>
      rw [opened] at tried
      cases tried
      obtain ⟨clean, opens⟩ := openToWrite_opens opened
      exact .inl ⟨_, rfl, clean, opens.after made⟩

end FileSystem

/-! ## Redirections -/

namespace World

/-- The text is the path of a directory on the way to the file of a redirection. A path that ends
in a slash is not even looked at. -/
def OnWay (w : World) (r : Redirect) (text : String) : Prop :=
  ¬ Path.endsInSlash r.path ∧ (Path.resolve w.session.cwd r.path).IsBelow text

/-- The ways in which the opening of the file of a stream can end. -/
inductive Tries (w : World) (c : Channel) :
    Option Redirect → EStateM.Result Fault World (Option Refusal) → Prop
  | none : Tries w c none (.ok none w)
  | slash {r : Redirect} (slash : Path.endsInSlash r.path) :
      Tries w c (some r) (.ok (some ⟨r.path, .isDirectory⟩) w)
  | opened {r : Redirect} {id : NodeId} {files : FileSystem} (named : ¬ Path.endsInSlash r.path)
      (clean : ¬ holdsNull (w.session.resolve r.path))
      (opens : w.files.Opens w.here (w.OnWay r) (w.session.resolve r.path) r.append id files) :
      Tries w c (some r) (.ok none (w.diverted c r id files))
  | refused {r : Redirect} {e : Errno} {files : FileSystem} (named : ¬ Path.endsInSlash r.path)
      (made : w.files.Develops w.here (w.OnWay r) (fun _ => False) files) :
      Tries w c (some r) (.ok (some ⟨r.path, e⟩) { w with files })
  | fault {r : Redirect} {fault : Fault} {files : FileSystem} (named : ¬ Path.endsInSlash r.path)
      (made : w.files.Develops w.here (w.OnWay r) (fun _ => False) files) :
      Tries w c (some r) (.error fault { w with files })

section

variable {w opened : World} {c : Channel} {r : Option Redirect} {refusal : Refusal}

/-- A file that is refused leaves nothing but directories on the way to it. -/
theorem Tries.of_refused (tries : w.Tries c r (.ok (some refusal) opened)) :
    ∃ r' files, r = some r' ∧ refusal.path = r'.path ∧ opened = { w with files } ∧
      w.files.Develops w.here (w.OnWay r') (fun _ => False) files := by
  cases tries with
  | slash slash => exact ⟨_, _, rfl, rfl, rfl, .refl _⟩
  | refused named made => exact ⟨_, _, rfl, rfl, rfl, made⟩

theorem Tries.of_accepted (tries : w.Tries c r (.ok Option.none opened)) :
    (r = Option.none ∧ opened = w) ∨ ∃ r' id files, r = some r' ∧ ¬ Path.endsInSlash r'.path ∧
      ¬ holdsNull (w.session.resolve r'.path) ∧ opened = w.diverted c r' id files ∧
      w.files.Opens w.here (w.OnWay r') (w.session.resolve r'.path) r'.append id files := by
  cases tries with
  | none => exact .inl ⟨rfl, rfl⟩
  | opened named clean opens => exact .inr ⟨_, _, _, rfl, named, clean, rfl, opens⟩

end

/-- A shell in a directory with a file. -/
def oneFile : World :=
  let open_ : Access := FileSystem.fullAccess
  { files := ⟨#[.directory open_ FileSystem.root "" [("old", 1)],
      .file open_ (Utf8.encode "kept").toArray none]⟩
    here := FileSystem.root
    session := { cwd := "/", env := [] } }

end World

theorem Act.openRedirect_tries (w : World) (c : Channel) (r : Option Redirect) :
    w.Tries c r (openRedirect c r w) := by
  unfold openRedirect
  cases r with
  | none => exact .none
  | some r =>
    dsimp only
    by_cases slash : Path.endsInSlash r.path
    · rw [if_pos slash]
      exact .slash slash
    rw [if_neg slash]
    simp only [bind_apply, get_apply, set_apply]
    have way : w.OnWay r = (Path.resolve w.session.cwd r.path).IsBelow := by
      funext text
      exact propext (and_iff_right slash)
    cases tried : w.files.openTarget w.here (Path.resolve w.session.cwd r.path) r.append with
    | mk files outcome =>
      rcases FileSystem.openTarget_opens tried with ⟨id, rfl, clean, opens⟩ | ⟨fault, rfl, made⟩
      · exact .opened slash clean (way ▸ opens)
      · rw [← way] at made
        cases fault with
        | refused e => exact .refused slash made
        | _ => exact .fault slash made

end LineShell
