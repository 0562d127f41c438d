import LineShell.Proofs.FileSystem.PlainTexts
import LineShell.Proofs.Path.Composition
import LineShell.Proofs.Redirection.Refused
import LineShell.Proofs.Redirection.Reports
import LineShell.Proofs.Session.Directory
import LineShell.Proofs.Session.Invariant

/-!
# Redirections to directories

A redirection cannot stand in for a stream where its path names a directory: by a slash at its end,
or because a directory is what it leads to (`World.NamesDirectory`). Then the command does none of
its work, and nothing happens to what the path names.

Where nothing is found that is not so. A path that ends in `.` or `..` can only name a directory,
too, but its canonical form has lost these names, and the names before them are taken for those of a
file (`echo_makes_file`).

Main statement: `refuses_directory`.
-/

namespace LineShell

open Act (Takes state)
open FileSystem (IsDots)

/-! ## Names that are not looked up -/

namespace Path

variable {root : Root} {above names : List String} {name : String}

/-- Below a root such a name takes away at most the nearest name. -/
theorem push_suffix (grounded : root ≠ .relative) (stacked : IsStack root above)
    (dots : IsDots name) : push root above name <:+ above := by
  rcases dots with rfl | rfl | rfl
  · exact push_empty root above ▸ List.suffix_rfl
  · exact push_dot root above ▸ List.suffix_rfl
  · cases above with
    | nil => simp [push, grounded]
    | cons nearest others =>
      have kept : nearest ≠ ".." := fun up => grounded (stacked.2.2.1 up).1
      simp [push, kept]

theorem foldl_push_suffix (grounded : root ≠ .relative) (stacked : IsStack root above)
    (dots : ∀ name ∈ names, IsDots name) : names.foldl (push root) above <:+ above := by
  induction names generalizing above with
  | nil => exact List.suffix_rfl
  | cons name names ih =>
    rw [List.forall_mem_cons] at dots
    have free : '/' ∉ name.toList := by
      rcases dots.1 with rfl | rfl | rfl <;> decide
    exact (ih (stacked.push free) dots.2).trans (push_suffix grounded stacked dots.1)

end Path

namespace FileSystem

variable {fs : FileSystem} {here id : NodeId} {path : String} {top : Root}
  {parts front : List String}

theorem hasDirectory_iff : fs.hasDirectory here path ↔ ∃ id access parent own entries,
    fs.find here path = .ok id ∧ fs.node? id = some (.directory access parent own entries) := by
  unfold hasDirectory
  constructor
  · intro h
    split at h
    case h_1 access parent own entries looked =>
      obtain ⟨id, found, there⟩ := find_of_lookup looked
      exact ⟨id, access, parent, own, entries, found, there⟩
    case h_2 => cases h
  · rintro ⟨id, access, parent, own, entries, found, there⟩
    simp [lookup, found, there]

/-- Where an absolute path leads somewhere there is a root. -/
theorem exists_root_of_find (absolute : Path.isAbsolute path) (found : fs.find here path = .ok id) :
    ∃ access parent own entries, fs.node? root = some (.directory access parent own entries) := by
  have located := locate_of_find found
  obtain ⟨_, _, walks⟩ := locate_of_ok located
  rw [walks, startOf_of_isAbsolute absolute] at located
  exact exists_directory_of_walk (Text.pieces_ne_nil '/' path) located

theorem hasDirectory_root (grounded : top ≠ .relative)
    (rooted : ∃ access parent own entries,
      fs.node? root = some (.directory access parent own entries)) :
    fs.hasDirectory here (Path.toString ⟨top, []⟩) := by
  obtain ⟨access, parent, own, entries, found⟩ := rooted
  have short : (Path.toString ⟨top, []⟩).utf8ByteSize ≤ maxPath := by
    cases top <;> decide
  refine hasDirectory_iff.2 ⟨root, access, parent, own, entries, find_of_locate ?_, found⟩
  rw [locate_toString grounded (by simp) found short]
  rfl

/-- All that is above a directory is one. -/
theorem hasDirectory_of_prefix (grounded : top ≠ .relative)
    (named : ∀ part ∈ parts, Path.IsName part) (above : front <+: parts)
    (there : fs.hasDirectory here (Path.toString ⟨top, parts⟩)) :
    fs.hasDirectory here (Path.toString ⟨top, front⟩) := by
  obtain ⟨more, rfl⟩ := above
  by_cases whole : more = []
  · rwa [whole, List.append_nil] at there
  obtain ⟨id, _, _, _, _, found, _⟩ := hasDirectory_iff.1 there
  by_cases bare : front = []
  · subst bare
    have absolute : Path.isAbsolute (Path.toString ⟨top, more⟩) := by
      rw [Path.isAbsolute_toString whole named]
      simpa using grounded
    exact hasDirectory_root grounded (exists_root_of_find absolute found)
  · exact hasDirectory_of_find bare whole named found

/-- From a directory that is there a path without names leads to one. -/
theorem hasDirectory_of_dots {s : Session} {p : String} (settled : s.IsSettled)
    (there : fs.hasDirectory here s.cwd) (dots : ∀ piece ∈ Text.pieces '/' p, IsDots piece) :
    fs.hasDirectory here (s.resolve p) := by
  unfold Session.resolve Path.resolve
  cases kind : Path.isAbsolute p with
  | true =>
    have grounded : Path.rootOf p ≠ .relative := rootOf_ne_relative kind
    have bare : (Path.normalize p).parts = [] := by
      have suffix : _ <:+ [] := Path.foldl_push_suffix grounded trivial dots
      rw [Path.normalize, List.suffix_nil.1 suffix, List.reverse_nil]
    obtain ⟨id, _, _, _, _, found, _⟩ := hasDirectory_iff.1 there
    rw [Path.join_of_isAbsolute kind,
      show Path.normalize p = ⟨Path.rootOf p, (Path.normalize p).parts⟩ from rfl, bare]
    exact hasDirectory_root grounded (exists_root_of_find settled.absolute found)
  | false =>
    have grounded : Path.rootOf s.cwd ≠ .relative := rootOf_ne_relative settled.absolute
    have suffix := Path.foldl_push_suffix grounded (Path.isStack_parts s.cwd) dots
    rw [Path.normalize_join_of_relative kind]
    apply hasDirectory_of_prefix grounded (Path.isName_of_mem_parts s.cwd)
    · rw [← List.reverse_suffix, List.reverse_reverse]
      exact suffix
    · have written : Path.toString (Path.normalize s.cwd) = s.cwd := settled.normal
      exact written.symm ▸ there

end FileSystem

/-! ## Opening the files of a command -/

namespace World

/-- The path names a directory: it says so by a slash at its end, or it leads to one. -/
def NamesDirectory (w : World) (p : String) : Prop :=
  Path.endsInSlash p ∨ w.files.hasDirectory w.here (w.session.resolve p)

/-- The file for the errors of a command is opened or refused, and what is said there is taken. -/
structure HearsErrors (w : World) (c : Command) : Prop where
  tried : ∀ fault mid, Act.openRedirect .err c.stderr w ≠ .error fault mid
  takes : ∀ mid, Act.openRedirect .err c.stderr w = .ok none mid → mid.TakesErrors

variable {w mid opened : World} {c : Command} {r : Redirect} {refusal : Refusal}

/-- Without a file for the errors they are heard on the terminal. -/
theorem IsIdle.hearsErrors (idle : w.IsIdle) (inherits : c.stderr = none) : w.HearsErrors c := by
  have quiet : Act.openRedirect .err c.stderr w = .ok none w := by
    rw [inherits]
    rfl
  refine ⟨fun fault mid failed => ?_, fun mid opened => ?_⟩
  · rw [quiet] at failed
    cases failed
  · rw [quiet] at opened
    cases opened
    exact idle.takesErrors

theorem NamesDirectory.of_grows {p : String} (names : w.NamesDirectory p)
    (grows : w.files.Grows mid.files) (here : mid.here = w.here)
    (session : mid.session = w.session) : mid.NamesDirectory p := by
  refine names.imp_right fun there => ?_
  obtain ⟨id, access, parent, own, entries, found, directory⟩ := FileSystem.hasDirectory_iff.1 there
  obtain ⟨more, directory'⟩ := grows.directory directory
  rw [here, session]
  exact FileSystem.hasDirectory_iff.2 ⟨id, _, _, _, _, grows.find found, directory'⟩

/-- A path that names a directory is refused before anything happens. -/
theorem openRedirect_of_namesDirectory (plain : w.files.IsPlain) (names : w.NamesDirectory r.path)
    (ch : Channel) :
    Act.openRedirect ch (some r) w = .ok (some ⟨r.path, .isDirectory⟩) w := by
  by_cases slash : Path.endsInSlash r.path
  · simp [Act.openRedirect, slash]
  · obtain ⟨id, access, parent, own, entries, found, directory⟩ :=
      FileSystem.hasDirectory_iff.1 (names.resolve_left slash)
    have clean := FileSystem.not_holdsNull_of_find plain found
    have opens := openRedirect_of_find found clean (fun ends => absurd ends slash) ch r.append
    rw [opens]
    simp [FileSystem.openNode, directory, Act.divert]

/-- What the opening of the files of a command has come to where one of them is refused. -/
structure Refused (w : World) (c : Command) (ch : Channel) (opened : World) : Prop where
  session : opened.session = w.session
  here : opened.here = w.here
  out : opened.redirects.out = none
  takes : w.HearsErrors c → opened.TakesErrors
  /-- What has happened to the tree is what the other redirection asks for. -/
  alone : ch = .err ∨ c.stderr = none → opened.redirects.err = none ∧ opened.files = w.files
  tree : ∀ r, c.stderr = some r →
    w.files.Develops w.here (w.OnWay r)
      (fun id => opened.files.find w.here (w.session.resolve r.path) = .ok id) opened.files
  stands : ∀ file, opened.redirects.err = some file → ∃ r, c.stderr = some r ∧
    opened.files.find w.here (w.session.resolve r.path) = .ok file.node

/-- Where there is no other file, nothing happens to the tree when the refusal is said. -/
theorem Refused.files_eq {ch : Channel} {message : String} {v : World}
    (refused : w.Refused c ch opened) (said : opened.Says message v)
    (alone : ch = .err ∨ c.stderr = none) : v.files = w.files := by
  obtain ⟨free, files⟩ := refused.alone alone
  rcases said.files with same | ⟨file, data, stands, _⟩
  · exact same.trans files
  · cases free.symm.trans stands

/-- The line about the refusal comes to the file that the other redirection asks for. -/
theorem Refused.develops {ch : Channel} {message : String} {v : World}
    (refused : w.Refused c ch opened) (said : opened.Says message v) (errors : c.stderr = some r) :
    w.files.Develops w.here (w.OnWay r)
      (fun id => v.files.find w.here (w.session.resolve r.path) = .ok id) v.files := by
  have tree := refused.tree r errors
  rcases said.files with same | ⟨file, data, stands, written⟩
  · rwa [same]
  · obtain ⟨r', errors', found⟩ := refused.stands file stands
    obtain rfl := Option.some.inj (errors.symm.trans errors')
    have later : opened.files.Develops w.here (w.OnWay r) (· = file.node)
        (opened.files.withContents file.node data) :=
      FileSystem.withContents_develops _ _ _
    rw [written]
    refine (tree.mono (fun _ way => way) fun id found => later.find found).trans
      (later.mono (fun _ way => way) ?_)
    rintro _ rfl
    exact later.find found

/-- The file for the errors is refused, for its own path or as the one that names a directory. -/
theorem refused_of_errors (idle : w.IsIdle) (plain : w.files.IsPlain) {ch : Channel}
    (target : c.redirect ch = some r) (names : w.NamesDirectory r.path)
    (ran : Act.openRedirect .err c.stderr w = .ok (some refusal) opened) :
    w.Refused c ch opened := by
  have tried := Act.openRedirect_tries w .err c.stderr
  rw [ran] at tried
  obtain ⟨r', files, errors, _, rfl, made⟩ := tried.of_refused
  refine ⟨rfl, rfl, idle.get .out, fun _ => ?_, fun alone => ?_, fun other same => ?_,
    fun file stands => ?_⟩
  · have still : ({ w with files } : World).IsIdle := idle
    exact still.takesErrors
  · -- where there is no other file, this is the one that names a directory
    rcases alone with rfl | none
    · have same : c.stderr = some r := target
      rw [same, openRedirect_of_namesDirectory plain names] at ran
      exact ⟨idle.get .err, (congrArg World.files (EStateM.Result.ok.inj ran).2).symm⟩
    · rw [none] at errors
      cases errors
  · obtain rfl := Option.some.inj (errors.symm.trans same)
    exact made.mono (fun _ way => way) fun _ nothing => nothing.elim
  · cases (idle.get .err).symm.trans stands

/-- What names a directory does so after the file for the errors was opened. -/
theorem refused_of_output (idle : w.IsIdle) (plain : w.files.IsPlain) (output : c.stdout = some r)
    (names : w.NamesDirectory r.path) (ran : Act.openRedirect .err c.stderr w = .ok none opened) :
    Act.openRedirect .out c.stdout opened = .ok (some ⟨r.path, .isDirectory⟩) opened ∧
      w.Refused c .out opened := by
  have tried := Act.openRedirect_tries w .err c.stderr
  have steps : w.Steps emptyRelation (state (Act.openRedirect .err c.stderr w)) :=
    Act.openRedirect_takes .err c.stderr w
  rw [ran] at tried steps
  rw [output]
  rcases tried.of_accepted with ⟨none, rfl⟩ | ⟨r', id, files, errors, _, _, rfl, opens⟩
  · refine ⟨openRedirect_of_namesDirectory plain names .out, rfl, rfl, idle.get .out,
      fun _ => idle.takesErrors, fun _ => ⟨idle.get .err, rfl⟩, fun other same => ?_,
      fun file stands => ?_⟩
    · rw [none] at same
      cases same
    · cases (idle.get .err).symm.trans stands
  · have grown : (w.diverted .err r' id files).NamesDirectory r.path :=
      names.of_grows opens.develops.toGrows rfl rfl
    have plain' : (w.diverted .err r' id files).files.IsPlain :=
      plain.edits (Steps.files steps)
    refine ⟨openRedirect_of_namesDirectory plain' grown .out, rfl, rfl, idle.get .out,
      fun hears => hears.takes _ ran, fun alone => ?_, fun other same => ?_, ?_⟩
    · rcases alone with other | none
      · cases other
      · rw [none] at errors
        cases errors
    · obtain rfl := Option.some.inj (errors.symm.trans same)
      refine opens.develops.mono (fun _ way => way) ?_
      rintro _ rfl
      exact opens.find
    · rintro file ⟨⟩
      exact ⟨r', errors, opens.find⟩

theorem openRedirects_of_namesDirectory (idle : w.IsIdle) (plain : w.files.IsPlain) {ch : Channel}
    (target : c.redirect ch = some r) (names : w.NamesDirectory r.path) :
    (∃ fault mid, Act.openRedirect .err c.stderr w = .error fault mid ∧
      Act.openRedirects c w = .error fault mid) ∨
    ∃ refusal opened, Act.openRedirects c w = .ok (some refusal) opened ∧
      w.Refused c ch opened := by
  unfold Act.openRedirects
  rw [Act.bind_apply]
  cases ran : Act.openRedirect .err c.stderr w with
  | error fault mid => exact .inl ⟨fault, mid, rfl, rfl⟩
  | ok outcome mid =>
    right
    cases outcome with
    | some refusal => exact ⟨refusal, mid, rfl, refused_of_errors idle plain target names ran⟩
    | none =>
      cases ch with
      | err =>
        have errors : c.stderr = some r := target
        rw [errors, openRedirect_of_namesDirectory plain names] at ran
        cases ran
      | out =>
        obtain ⟨refuses, refused⟩ := refused_of_output idle plain target names ran
        exact ⟨_, mid, refuses, refused⟩

end World

namespace Act

open World

variable {w opened : World} {c : Command} {name : String} {refusal : Refusal} {ch : Channel}
  {r : Redirect}

/-- The refusal is said, and that is all. -/
theorem executeBy_of_refused (named : c.name = some name)
    (refuses : openRedirects c w = .ok (some refusal) opened) (free : opened.redirects.out = none)
    (takes : opened.TakesErrors) : ∃ v, opened.Says refusal.line v ∧
      ∀ workers, executeBy workers c w = .ok 1
        { v with redirects := ⟨none, none⟩, session := { opened.session with status := 1 } } := by
  obtain ⟨v, reported, said⟩ := report_said takes refusal.line
  refine ⟨v, said, fun workers => ?_⟩
  have done : (do report refusal.line; return failureStatus) opened = .ok 1 v := by
    rw [bind_apply, reported]
    rfl
  rw [executeBy_reporting named refuses, completing_closeRedirects done (said.closeRedirects free), ← said.session]

/-- Who would do the work makes no difference to a command of which no file is opened. -/
theorem executeBy_eq_of_refused (named : c.name = some name)
    (stopped : (∃ fault mid, openRedirects c w = .error fault mid) ∨
      ∃ refusal mid, openRedirects c w = .ok (some refusal) mid) (workers workers' : Workers) :
    executeBy workers c w = executeBy workers' c w := by
  have same : perform workers name c w = perform workers' name c w := by
    rcases stopped with ⟨fault, mid, failed⟩ | ⟨refusal, mid, refused⟩
    · unfold perform
      rw [bind_apply, bind_apply, failed]
    · rw [perform_refused refused, perform_refused refused]
  rw [executeBy_named named, executeBy_named named]
  exact completing_congr same

/-- From a directory that is there, each path without names names a directory. A command with a
file of which the path names a directory comes to 1 without any work being done, whoever is to do
it, and nothing happens to the tree but what the file for the errors asks for if that is another
one. -/
theorem refuses_directory (idle : w.IsIdle) (plain : w.files.IsPlain) :
    (w.session.IsSettled → w.files.hasDirectory w.here w.session.cwd →
      ∀ p, (∀ piece ∈ Text.pieces '/' p, IsDots piece) → w.NamesDirectory p) ∧
    ∀ {c : Command} {name : String} {ch : Channel} {r : Redirect}, c.name = some name →
      c.redirect ch = some r → w.NamesDirectory r.path →
      (∀ ch, openRedirect ch (some r) w = .ok (some ⟨r.path, .isDirectory⟩) w) ∧
      (∀ workers workers', executeBy workers c w = executeBy workers' c w) ∧
      (w.HearsErrors c → ∃ v, (∀ workers, executeBy workers c w = .ok 1 v) ∧
        v.session = { w.session with status := 1 } ∧
        (ch = .err ∨ c.stderr = none → v.files = w.files) ∧
        ∀ r', c.stderr = some r' → w.files.Develops w.here (w.OnWay r')
          (fun id => v.files.find w.here (w.session.resolve r'.path) = .ok id) v.files) := by
  refine ⟨fun settled there p dots => .inr (FileSystem.hasDirectory_of_dots settled there dots), ?_⟩
  intro c name ch r named target names
  refine ⟨openRedirect_of_namesDirectory plain names, ?_⟩
  rcases openRedirects_of_namesDirectory idle plain target names with
    ⟨fault, mid, failed, stopped⟩ | ⟨refusal, opened, refuses, refused⟩
  · exact ⟨executeBy_eq_of_refused named (.inl ⟨fault, mid, stopped⟩),
      fun hears => absurd failed (hears.tried fault mid)⟩
  · refine ⟨executeBy_eq_of_refused named (.inr ⟨refusal, opened, refuses⟩), fun hears => ?_⟩
    obtain ⟨v, said, ended⟩ :=
      executeBy_of_refused named refuses refused.out (refused.takes hears)
    have still := refused.files_eq said
    have grows := fun r' (errors : c.stderr = some r') => refused.develops said errors
    exact ⟨_, ended, by rw [refused.session], still, grows⟩

/-- What `echo hi > ..` comes to. -/
theorem echo_into_parent : oneFile.IsIdle ∧ oneFile.files.IsPlain ∧ oneFile.session.IsSettled ∧
    oneFile.files.hasDirectory oneFile.here oneFile.session.cwd ∧ ∃ v,
      (∀ workers, executeBy workers
        { name := some "echo", arguments := ["hi"], stdout := some ⟨"..", false⟩ } oneFile =
          .ok 1 v) ∧ v.files = oneFile.files := by
  have idle : oneFile.IsIdle := rfl
  have plain : oneFile.files.IsPlain := by decide
  have settled : oneFile.session.IsSettled := ⟨by decide, by unfold Path.IsNormal; decide⟩
  have there : oneFile.files.hasDirectory oneFile.here oneFile.session.cwd := by decide
  obtain ⟨names, refuses⟩ := refuses_directory idle plain
  let c : Command := { name := some "echo", arguments := ["hi"], stdout := some ⟨"..", false⟩ }
  have named : c.name = some "echo" := rfl
  have target : c.redirect .out = some ⟨"..", false⟩ := rfl
  have parent : oneFile.NamesDirectory ".." := names settled there ".." (by unfold IsDots; decide)
  obtain ⟨v, ended, _, alone, _⟩ := (refuses named target parent).2.2 (idle.hearsErrors rfl)
  exact ⟨idle, plain, settled, there, v, ended, alone (.inr rfl)⟩

/-- The path `new/.` can only name a directory. Where there is none, `echo hi > new/.` makes a
file. -/
theorem echo_makes_file :
    let c : Command := { name := some "echo", arguments := ["hi"], stdout := some ⟨"new/.", false⟩ }
    (Text.pieces '/' "new/.").getLast? = some "." ∧ oneFile.files.has oneFile.here "/new" = false ∧
    ∃ v, execute c oneFile = .ok 0 v ∧ (v.files.find oneFile.here "/new").toOption = some 2 ∧
      v.files.contents? 2 = some (Utf8.encode "hi\n") := by
  intro c
  refine ⟨by decide, by decide +kernel, (execute c).run oneFile, ?_, ?_, ?_⟩ <;> decide +kernel

end Act

end LineShell
