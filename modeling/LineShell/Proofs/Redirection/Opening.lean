import LineShell.Execution
import LineShell.Proofs.FileSystem.Contents
import LineShell.Proofs.FileSystem.Passage
import LineShell.Proofs.World

/-!
# Opening a file that is there

The file of a redirection is opened after the directories on the way to it have been made. If
it is there already, so are they: `makeDirectories_of_find` leaves the tree as it is, and all
that opening does is to empty the file, unless it is to be appended to.

Main statements: `openTarget_of_leadsTo`, and `openRedirect_of_leadsTo` for the file of a
redirection.
-/

namespace LineShell

namespace FileSystem

variable {fs : FileSystem} {here id : NodeId} {path : String}

/-- A path leads to a regular file that may be written. -/
structure LeadsTo (fs : FileSystem) (here : NodeId) (path : String) (id : NodeId) : Prop where
  found : fs.find here path = .ok id
  writable : ∃ access data program, fs.node? id = some (.file access data program) ∧
    access.write = true

theorem locate_write_of_leadsTo (leads : fs.LeadsTo here path id) :
    fs.locate .write here path = .ok (.node id) := by
  have located := locate_of_find leads.found
  obtain ⟨_, _, walks⟩ := locate_of_ok located
  obtain ⟨access, data, program, file, _⟩ := leads.writable
  rw [walks] at located ⊢
  exact walk_write_of_walk_use (by simp [file]) located

/-! ## The directories on the way -/

variable {root : Root} {parts more : List String}

/-- What stands before the last names of a path that leads somewhere is a directory. -/
theorem hasDirectory_of_find (nonempty : parts ≠ []) (more_nonempty : more ≠ [])
    (names : ∀ part ∈ parts ++ more, Path.IsName part)
    (h : fs.find here (Path.toString ⟨root, parts ++ more⟩) = .ok id) :
    fs.hasDirectory here (Path.toString ⟨root, parts⟩) = true := by
  have names' : ∀ part ∈ parts, Path.IsName part :=
    fun part listed => names part (List.mem_append_left more listed)
  have whole : parts ++ more ≠ [] := by simp [nonempty]
  have located := locate_of_find h
  obtain ⟨_, short, walks⟩ := locate_of_ok located
  rw [walks, Path.pieces_toString whole names, ← List.append_assoc] at located
  -- the walk to the whole path passes through what stands before its last names
  obtain ⟨mid, first, links, _, second⟩ := walk_append more_nonempty located
  obtain ⟨access, parent, own, entries, directory⟩ :=
    exists_directory_of_walk more_nonempty second
  -- both paths start at the same node, and the shorter one is not too long either
  have start : startOf here (Path.toString ⟨root, parts ++ more⟩) =
      startOf here (Path.toString ⟨root, parts⟩) := by
    simp only [startOf, Path.isAbsolute_toString whole names,
      Path.isAbsolute_toString nonempty names']
  have short' : ¬ maxPath < (Path.toString ⟨root, parts⟩).utf8ByteSize := by
    rw [Path.toString_append nonempty more_nonempty, String.utf8ByteSize_append,
      String.utf8ByteSize_append] at short
    omega
  have found : fs.find here (Path.toString ⟨root, parts⟩) = .ok mid := by
    apply find_of_locate
    unfold locate
    rw [if_neg (Path.toString_ne_empty nonempty names'), if_neg short',
      Path.pieces_toString nonempty names', ← start]
    exact first
  simp [hasDirectory, lookup, found, directory]

theorem has_of_hasDirectory (h : fs.hasDirectory here path = true) : fs.has here path = true := by
  unfold hasDirectory at h
  unfold has
  cases found : fs.lookup here path with
  | error e => simp [found] at h
  | ok node => rfl

/-- A directory that is there is not made again. -/
theorem makeDirectory_of_hasDirectory (h : fs.hasDirectory here path = true) :
    ∃ fault, fs.makeDirectory here path = .error fault := by
  unfold makeDirectory
  by_cases null : holdsNull path
  · exact ⟨_, if_pos null⟩
  have found : ∃ id, fs.find here path = .ok id := by
    unfold hasDirectory lookup at h
    cases found : fs.find here path with
    | error e => simp [found] at h
    | ok id => exact ⟨id, rfl⟩
  obtain ⟨id, found⟩ := found
  obtain ⟨other, located⟩ := locate_entry_of_find found
  rw [if_neg null, located]
  exact ⟨_, rfl⟩

/-- Nothing is made on the way to something that is there. -/
theorem makeDirectories_of_find {last : String} {above : List String}
    (names : ∀ part ∈ above.reverse ++ [last], Path.IsName part)
    (h : fs.find here (Path.toString ⟨root, above.reverse ++ [last]⟩) = .ok id) :
    fs.makeDirectories here root above = (fs, .ok ()) := by
  cases above with
  | nil => rfl
  | cons name above =>
    -- the last directory on the way is there, and so is the one that it is in
    have directory := hasDirectory_of_find (by simp) (by simp) names h
    have before : above = [] ∨ fs.has here (Path.toString ⟨root, above.reverse⟩) = true := by
      by_cases top : above = []
      · exact .inl top
      right
      rw [List.reverse_cons, List.append_assoc] at names h
      exact has_of_hasDirectory (hasDirectory_of_find (by simpa using top) (by simp) names h)
    obtain ⟨fault, refused⟩ := makeDirectory_of_hasDirectory directory
    simp only [makeDirectories, maxMissing, makeDirectoriesWithin, if_pos before, refused,
      directory, if_true]

/-! ## The file itself -/

/-- The tree in which a file is ready to be written to: from its end, or from its start after
all that it held was thrown away. -/
def prepared (fs : FileSystem) (id : NodeId) (append : Bool) : FileSystem :=
  match fs.node? id, append with
  | some (.file access _ _), false => fs.put id (.file access #[] none)
  | _, _ => fs

@[simp] theorem prepared_append (fs : FileSystem) (id : NodeId) : fs.prepared id true = fs := by
  unfold prepared
  split
  · contradiction
  · rfl

theorem openToWrite_of_leadsTo (leads : fs.LeadsTo here path id) (clean : ¬ holdsNull path)
    (append : Bool) : fs.openToWrite here path append = .ok (id, fs.prepared id append) := by
  obtain ⟨access, data, program, file, writable⟩ := leads.writable
  unfold openToWrite prepared
  rw [if_neg clean, locate_write_of_leadsTo leads]
  cases append <;> simp [file, writable]

/-- On the way to something that is there no directory is made, so all that is left is to open
it. -/
theorem openTarget_of_find {cwd p : String}
    (found : fs.find here (Path.resolve cwd p).toString = .ok id) (append : Bool) :
    fs.openTarget here (Path.resolve cwd p) append =
      match fs.openToWrite here (Path.resolve cwd p).toString append with
      | .error fault => (fs, .error fault)
      | .ok (id, fs) => (fs, .ok id) := by
  -- a resolved path has names only, so each of them is a step of the walk
  have names := Path.isName_of_mem_parts (Path.join cwd p)
  change ∀ part ∈ (Path.resolve cwd p).parts, Path.IsName part at names
  generalize Path.resolve cwd p = path at *
  obtain ⟨root, parts⟩ := path
  have made : fs.makeDirectories here root parts.reverse.tail = (fs, .ok ()) := by
    cases reversed : parts.reverse with
    | nil => rfl
    | cons last above =>
      obtain rfl : parts = above.reverse ++ [last] := by
        rw [← List.reverse_cons, ← reversed, List.reverse_reverse]
      exact makeDirectories_of_find names found
  unfold openTarget
  cases opened : fs.openToWrite here (Path.toString ⟨root, parts⟩) append with
  | error fault => simp only [made, opened]
  | ok result => simp only [made, opened]

/-- Opening a file that is there leaves everything else as it is. -/
theorem openTarget_of_leadsTo {cwd p : String}
    (leads : fs.LeadsTo here (Path.resolve cwd p).toString id)
    (clean : ¬ holdsNull (Path.resolve cwd p).toString) (append : Bool) :
    fs.openTarget here (Path.resolve cwd p) append = (fs.prepared id append, .ok id) := by
  rw [openTarget_of_find leads.found, openToWrite_of_leadsTo leads clean]

/-- A file that is ready to be written to may be veiled from then on. -/
theorem Veils.prepared {gs : FileSystem} {held : NodeId → Option Bytes} (veils : Veils held fs gs)
    {access : Access} {data : Array UInt8} {program : Option Program}
    (file : fs.node? id = some (.file access data program)) (apart : held id = none)
    (append : Bool) :
    Veils
      (fun other => if other = id then some (if append then data.toList else []) else held other)
      fs (gs.prepared id append) := by
  have file' : gs.node? id = some (.file access data program) := (veils.apart apart).trans file
  have others : ∀ other, other ≠ id → (gs.prepared id append).node? other = gs.node? other := by
    intro other different
    unfold FileSystem.prepared
    split
    · exact node?_put_of_ne _ different
    · rfl
  have ready : ∃ program', (gs.prepared id append).node? id =
      some (.file access (if append then data.toList else []).toArray program') := by
    unfold FileSystem.prepared
    rw [file']
    cases append with
    | true => exact ⟨program, by simpa using file'⟩
    | false => exact ⟨none, node?_put_self _ (lt_next_of_node? file')⟩
  have next : (gs.prepared id append).next = fs.next := by
    rw [← veils.next]
    unfold FileSystem.prepared
    split <;> simp
  refine ⟨next, fun {other} free => ?_, fun {other bytes} holds => ?_⟩
  · by_cases same : other = id
    · simp [same] at free
    · rw [if_neg same] at free
      rw [others other same, veils.apart free]
  · by_cases same : other = id
    · subst same
      obtain ⟨program', ready⟩ := ready
      rw [if_pos rfl] at holds
      rw [← Option.some.inj holds]
      exact ⟨access, data, program, program', file, ready⟩
    · rw [if_neg same] at holds
      rw [others other same]
      exact veils.veiled holds

/-- In both trees a path leads to the same files. -/
theorem Veils.leadsTo {gs : FileSystem} {held : NodeId → Option Bytes} (veils : Veils held fs gs)
    (leads : fs.LeadsTo here path id) : gs.LeadsTo here path id := by
  obtain ⟨access, data, program, file, writable⟩ := leads.writable
  refine ⟨(veils.find_eq here path).trans leads.found, ?_⟩
  rcases veils.node_cases id with same | ⟨access', _, _, data', program', before, after⟩
  · exact ⟨access, data, program, same.trans file, writable⟩
  · rw [file] at before
    cases before
    exact ⟨access, data', program', after, writable⟩

end FileSystem

/-! ## Redirections -/

/-- The world in which the file `node` has begun to stand in for a stream. -/
def World.diverted (w : World) (c : Channel) (r : Redirect) (node : NodeId) (files : FileSystem) :
    World :=
  let file : OpenFile := { path := w.session.resolve r.path, node, append := r.append }
  { w with files, redirects := w.redirects.set c (some file) }

/-- The file of a redirection stands in for the stream if the path leads to it. -/
theorem Act.openRedirect_of_leadsTo {w : World} {r : Redirect} {id : NodeId}
    (named : ¬ Path.endsInSlash r.path) (clean : ¬ holdsNull (w.session.resolve r.path))
    (leads : w.files.LeadsTo w.here (w.session.resolve r.path) id) (c : Channel) :
    openRedirect c (some r) w =
      .ok none (w.diverted c r id (w.files.prepared id r.append)) := by
  have opens : w.files.openTarget w.here (Path.resolve w.session.cwd r.path) r.append =
      (w.files.prepared id r.append, .ok id) :=
    FileSystem.openTarget_of_leadsTo leads clean r.append
  simp [openRedirect, named, opens, World.diverted, Session.resolve]

end LineShell
