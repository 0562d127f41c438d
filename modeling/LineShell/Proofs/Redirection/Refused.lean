import LineShell.Proofs.Execution.Closing
import LineShell.Proofs.Redirection.Lines
import LineShell.Proofs.Redirection.Targets

/-!
# Redirections that are refused

A command of which a file cannot be opened does none of its work. It says so in one line, on the
stream that stands for the errors by then, and leaves everything else as it is but for what the
opening of its files has done to the tree (`World.Refuses`).

Main statement: `executeBy_refused`.
-/

namespace LineShell

/-- The line that says that a file could not be opened. -/
def Refusal.line (refusal : Refusal) : String :=
  s!"minishell: {refusal.message}"

namespace World

variable {w mid opened : World} {c : Channel} {r : Option Redirect} {refusal : Refusal}

/-- For a path that ends in a slash nothing is made. -/
theorem eq_of_slash {r : Redirect} {files : FileSystem} (slash : Path.endsInSlash r.path)
    (made : w.files.Develops w.here (w.OnWay r) (fun _ => False) files) : files = w.files :=
  FileSystem.Develops.eq_of_nothing
    (made.mono (fun _ way => absurd slash way.1) fun _ nothing => nothing)

/-- What a command comes to of which a file is refused: where this is said, and what has become of
the tree. -/
inductive Refuses (w : World) (c : Command) (refusal : Refusal) (v : World) : Prop
  /-- The file for the errors was refused. The other one was not tried. -/
  | errors {r : Redirect} (redirects : c.stderr = some r) (path : refusal.path = r.path)
      (said : v.terminals.err = (w.terminals.err.print (w.errorLine refusal.line)).flush)
      (tree : w.files.Develops w.here (w.OnWay r) (fun _ => False) v.files)
      (slash : Path.endsInSlash r.path → v.files = w.files)
  /-- The file for the output was refused, and there is none for the errors. -/
  | output {r : Redirect} (inherits : c.stderr = none) (redirects : c.stdout = some r)
      (path : refusal.path = r.path)
      (said : v.terminals.err = (w.terminals.err.print (w.errorLine refusal.line)).flush)
      (tree : w.files.Develops w.here (w.OnWay r) (fun _ => False) v.files)
      (slash : Path.endsInSlash r.path → v.files = w.files)
  /-- The file for the output was refused, and that is said in the file for the errors. -/
  | inFile {r r' : Redirect} {id : NodeId} (diverts : c.stderr = some r)
      (named : ¬ Path.endsInSlash r.path) (redirects : c.stdout = some r')
      (path : refusal.path = r'.path) (quiet : v.terminals.err = w.terminals.err)
      (found : v.files.find w.here (w.session.resolve r.path) = .ok id)
      (tree : w.files.Develops w.here (fun way => w.OnWay r way ∨ w.OnWay r' way) (· = id) v.files)
      (said : v.files.node? id = some (.device .null) ∨ v.files.contents? id =
        some ((if r.append then (w.files.contents? id).getD [] else []) ++
          Utf8.encode (refusal.line ++ "\n")))

end World

namespace Act

open World

variable {w opened : World} {c : Command} {name : String} {refusal : Refusal}

theorem perform_refused (refused : openRedirects c w = .ok (some refusal) opened)
    (workers : Workers) : perform workers name c w =
      (do report refusal.line; return failureStatus) opened := by
  unfold perform
  rw [bind_apply, refused]
  rfl

/-- The ways in which the opening of the files of a command comes to a refusal. -/
theorem openRedirects_refused (refused : openRedirects c w = .ok (some refusal) opened) :
    w.Tries .err c.stderr (.ok (some refusal) opened) ∨
    ∃ mid, w.Tries .err c.stderr (.ok none mid) ∧
      mid.Tries .out c.stdout (.ok (some refusal) opened) := by
  have first := openRedirect_tries w .err c.stderr
  unfold openRedirects at refused
  rw [bind_apply] at refused
  cases ran : openRedirect .err c.stderr w with
  | error fault mid => simp [ran] at refused
  | ok outcome mid =>
    rw [ran] at first refused
    cases outcome with
    | some refusal' =>
      cases refused
      exact .inl first
    | none =>
      have second := openRedirect_tries mid .out c.stdout
      dsimp only at refused
      rw [refused] at second
      exact .inr ⟨mid, first, second⟩

/-- A refusal is all that such a command reports. -/
theorem executeBy_reporting (named : c.name = some name)
    (refused : openRedirects c w = .ok (some refusal) opened) (workers : Workers) :
    executeBy workers c w =
      completing (do report refusal.line; return failureStatus) opened := by
  rw [executeBy_named named]
  exact completing_congr (perform_refused refused workers)

/-- Without a file for the errors a refusal is said on the terminal. -/
theorem executeBy_refused_onTerminal (named : c.name = some name)
    (refused : openRedirects c w = .ok (some refusal) opened) (idle : opened.IsIdle)
    (workers : Workers) :
    let said := opened.onTerminal .err fun t => (t.print (opened.errorLine refusal.line)).flush
    executeBy workers c w = .ok 1 { said with session := { opened.session with status := 1 } } := by
  intro said
  have reported : (do report refusal.line; return failureStatus) opened = .ok 1 said := by
    simp only [bind_apply, report_apply (idle.get .err)]
    rfl
  rw [executeBy_reporting named refused]
  exact completing_apply reported idle

/-- Otherwise it is said in that file, which is closed then. -/
theorem executeBy_refused_onFile (named : c.name = some name)
    (refused : openRedirects c w = .ok (some refusal) opened) {file : OpenFile}
    (stands : opened.redirects = ⟨none, some file⟩) {files : FileSystem}
    (takes : file.TakesLine opened.files refusal.line files) (workers : Workers) :
    executeBy workers c w = .ok 1
      { opened with files, redirects := ⟨none, none⟩
                    session := { opened.session with status := 1 } } := by
  have isErr : opened.redirects.get .err = some file := by rw [stands]; rfl
  obtain ⟨v, ran, closed, _⟩ := writeLine_closeRedirect isErr takes
  have reported : (do report refusal.line; return failureStatus) opened = .ok 1 v := by
    rw [bind_apply, report_onFile isErr, ran]
    rfl
  have all : v.closeRedirects = { opened with files, redirects := ⟨none, none⟩ } := by
    rw [closeRedirects, closed, stands]
    rfl
  rw [executeBy_reporting named refused]
  exact completing_closeRedirects reported all

/-- A command of which a file cannot be opened comes to 1 without any work being done, whoever is
to do it. It writes nothing but one line about that, and nothing happens to the tree but what the
files that were tried ask for. -/
theorem executeBy_refused (idle : w.IsIdle) (named : c.name = some name)
    (refused : openRedirects c w = .ok (some refusal) opened)
    (writable : ∀ file, opened.redirects.err = some file →
      opened.files.node? file.node ≠ some (.device .full)) :
    ∃ v, (∀ workers, executeBy workers c w = .ok 1 v) ∧
      v.session = { w.session with status := 1 } ∧ v.IsIdle ∧ v.records = w.records ∧
      v.terminals.out = w.terminals.out ∧ w.Refuses c refusal v := by
  rcases openRedirects_refused refused with first | ⟨mid, first, second⟩
  · -- the file for the errors is the first to be opened, so nothing has been done yet
    obtain ⟨r, files, redirects, path, rfl, tree⟩ := first.of_refused
    exact ⟨_, executeBy_refused_onTerminal named refused idle, rfl, idle, rfl, rfl,
      .errors redirects path rfl tree fun slash => eq_of_slash slash tree⟩
  obtain ⟨r', files', redirects, path, rfl, tree'⟩ := second.of_refused
  rcases first.of_accepted with ⟨inherits, rfl⟩ | ⟨r, id, files, diverts, slash, _, rfl, opens⟩
  · exact ⟨_, executeBy_refused_onTerminal named refused idle, rfl, idle, rfl, rfl,
      .output inherits redirects path rfl tree' fun slash => eq_of_slash slash tree'⟩
  -- the file for the errors is open, so the line comes behind what it holds
  change files.Develops w.here (w.OnWay r') (fun _ => False) files' at tree'
  have tree : w.files.Develops w.here (fun way => w.OnWay r way ∨ w.OnWay r' way) (· = id) files' :=
    (opens.develops.mono (fun _ way => .inl way) fun _ same => same).trans
      (tree'.mono (fun _ way => .inr way) fun _ nothing => nothing.elim)
  let file : OpenFile := { path := w.session.resolve r.path, node := id, append := r.append }
  have nothing : w.redirects = ⟨none, none⟩ := idle
  have stands : ({ w.diverted .err r id files with files := files' } : World).redirects =
      ⟨none, some file⟩ := by
    simp only [diverted, nothing]
    rfl
  have writes : ∃ after, file.TakesLine files' refusal.line after ∧
      files'.Develops w.here (fun way => w.OnWay r way ∨ w.OnWay r' way) (· = id) after ∧
      (after.node? id = some (.device .null) ∨ after.contents? id =
        some ((if r.append then (w.files.contents? id).getD [] else []) ++
          Utf8.encode (refusal.line ++ "\n"))) := by
    cases opens with
    | file develops leads holds =>
      -- what was made on the way to the other file has not changed this one
      rw [← tree'.contents?_eq not_false] at holds
      have regular : (files'.contents? id).isSome := by simp [holds]
      generalize kept : (if r.append then (w.files.contents? id).getD [] else []) = data at holds ⊢
      have written : OpenFile.Written files' id r.append data (file, files') :=
        ⟨rfl, rfl, (FileSystem.withContents_self holds).symm, by
          by_cases append : r.append
          · exact .inl append
          · rw [if_neg append] at kept
            exact .inr (by rw [← kept]; rfl)⟩
      exact ⟨_, OpenFile.writeLine_regular regular written rfl rfl _,
        FileSystem.withContents_develops _ _ _, .inr (FileSystem.contents?_withContents regular _)⟩
    | @device device develops found isDevice =>
      obtain ⟨node, isDevice', grown⟩ := tree'.grown isDevice
      cases grown
      have isNull : files'.node? id = some (.device .null) := by
        cases device with
        | null => exact isDevice'
        | full => exact absurd isDevice' (writable file (congrArg Both.err stands))
      exact ⟨files', OpenFile.writeLine_null isNull rfl _, .refl _, .inl isNull⟩
  obtain ⟨after, takes, later, said⟩ := writes
  exact ⟨_, executeBy_refused_onFile named refused stands takes, rfl, rfl, rfl, rfl,
    .inFile diverts slash redirects path rfl (later.find (tree'.find opens.find))
      (tree.trans later) said⟩

/-- What `echo hi > sub/ 2>> old` leaves behind. -/
theorem echo_refused : ∃ v,
    (∀ workers, executeBy workers { name := some "echo", arguments := ["hi"],
                                    stdout := some ⟨"sub/", false⟩, stderr := some ⟨"old", true⟩ }
      oneFile = .ok 1 v) ∧
      v.terminals.out = oneFile.terminals.out ∧ v.terminals.err = oneFile.terminals.err ∧
      v.files.contents? 1 =
        some (Utf8.encode "kept" ++ Utf8.encode "minishell: sub/: Is a directory\n") := by
  let c : Command :=
    { name := some "echo", arguments := ["hi"]
      stdout := some ⟨"sub/", false⟩, stderr := some ⟨"old", true⟩ }
  let opened := oneFile.diverted .err ⟨"old", true⟩ 1 oneFile.files
  have refused : openRedirects c oneFile = .ok (some ⟨"sub/", .isDirectory⟩) opened := by
    decide +kernel
  have idle : oneFile.IsIdle := rfl
  obtain ⟨v, fails, _, _, _, out, refuses⟩ := executeBy_refused idle rfl refused (by
    rintro file ⟨⟩
    decide)
  cases refuses with
  | errors redirects path =>
    cases redirects
    exact absurd path (by decide)
  | output inherits => cases inherits
  | inFile diverts _ redirects _ quiet found tree said =>
    cases diverts
    -- the file that the errors go to is the one that was there
    have there : v.files.find oneFile.here (oneFile.session.resolve "old") = .ok 1 := tree.find rfl
    rw [there] at found
    cases found
    refine ⟨v, fails, out, quiet, ?_⟩
    rcases said with null | holds
    · have before : oneFile.files.node? 1 =
          some (.file FileSystem.fullAccess (Utf8.encode "kept").toArray none) := rfl
      obtain ⟨node, after, grown⟩ := tree.grown before
      rw [null] at after
      cases after
      cases grown
    · rw [holds]
      decide

end Act

end LineShell
