import LineShell.Proofs.Execution.TypeReport
import LineShell.Proofs.FileSystem.PlainTexts
import LineShell.Proofs.Redirection.Reports
import LineShell.Proofs.Session.Directory

/-!
# Going to a directory

`cd` goes to the directory that it is asked for, or it stays and says why (`runCd_cases`). Where it
goes to is what an operating system lets a process enter (`FileSystem.CanEnter`), so a program that
is launched afterwards is not refused for the directory that it is to run in
(`launchesInside_of_enter`).

Main statement: `goes_or_stays`.
-/

namespace LineShell

/-! ## Entering a directory -/

namespace FileSystem

variable {fs : FileSystem} {here id : NodeId} {path : String}

/-- A process may go to what the path leads to: the path can be handed over, and behind all links
it leads to a directory that one may go through. -/
def CanEnter (fs : FileSystem) (here : NodeId) (path : String) : Prop :=
  ¬ holdsNull path ∧ ∃ id access parent own entries, fs.find here path = .ok id ∧
    fs.node? id = some (.directory access parent own entries) ∧ access.execute = true

theorem enter_eq_ok_iff : fs.enter here path = .ok id ↔
    fs.find here path = .ok id ∧ ∃ access parent own entries,
      fs.node? id = some (.directory access parent own entries) ∧ access.execute = true := by
  constructor
  · intro entered
    have found := find_of_enter entered
    refine ⟨found, ?_⟩
    simp only [enter, found] at entered
    split at entered
    case h_1 access parent own entries there =>
      split at entered
      case isTrue through => exact ⟨access, parent, own, entries, there, through⟩
      case isFalse => cases entered
    case h_2 => cases entered
  · rintro ⟨found, access, parent, own, entries, there, through⟩
    simp [enter, found, there, through]

/-- In a tree of plain texts what can be found can be handed over. -/
theorem canEnter_iff (plain : fs.IsPlain) :
    fs.CanEnter here path ↔ ∃ id, fs.enter here path = .ok id := by
  constructor
  · rintro ⟨_, id, access, parent, own, entries, found, there⟩
    exact ⟨id, enter_eq_ok_iff.2 ⟨found, access, parent, own, entries, there⟩⟩
  · rintro ⟨id, entered⟩
    obtain ⟨found, access, parent, own, entries, there⟩ := enter_eq_ok_iff.1 entered
    exact ⟨not_holdsNull_of_find plain found, id, access, parent, own, entries, found, there⟩

/-- A file that may be launched is there. -/
theorem exists_file_of_hasExecutable (h : fs.hasExecutable here path = true) :
    ∃ id access data program, fs.find here path = .ok id ∧
      fs.node? id = some (.file access data program) ∧ access.execute = true := by
  unfold hasExecutable at h
  split at h
  case h_1 access data program looked =>
    obtain ⟨id, found, there⟩ := find_of_lookup looked
    exact ⟨id, access, data, program, found, there, h⟩
  case h_2 => cases h

/-- Nothing but somebody who writes to it keeps a file from being opened that may be launched. -/
theorem openToLaunch_of_hasExecutable (h : fs.hasExecutable here path = true) :
    ∃ held, fs.openToLaunch [] here path = .ok held := by
  obtain ⟨id, access, data, program, found, there, allowed⟩ := exists_file_of_hasExecutable h
  exact ⟨(data.toList, program), by simp [openToLaunch, found, there, allowed]⟩

end FileSystem

/-! ## What `cd` does -/

/-- The world after the session has gone to a directory. That is noted in the log. -/
def World.goneTo (w : World) (directory : String) : World :=
  { w.note .debug .builtin s!"cd {w.session.cwd} -> {directory}" with
    session := { w.session with cwd := directory } }

namespace Builtin

open Act

/-- What `cd` is asked for. -/
def target? : List String → Option String
  | [] => some "~"
  | [target] => some target
  | _ :: _ :: _ => none

/-- The directory that `cd` is to go to, if there is not too much of it and what it names can be
expanded. -/
def destination? (s : Session) (arguments : List String) : Option String :=
  (target? arguments).bind fun target => (expandHome s target).map s.resolve

variable {w : World}

theorem directoryError?_eq_none_iff {path : String} :
    directoryError? w path = none ↔ ∃ id, w.files.enter w.here path = .ok id := by
  simp only [FileSystem.enter_eq_ok_iff]
  unfold directoryError?
  cases looked : w.files.lookup w.here path with
  | error e =>
    -- what can be entered can be looked up
    refine iff_of_false (by simp) ?_
    rintro ⟨id, found, access, parent, own, entries, there, _⟩
    simp [FileSystem.lookup, found, there] at looked
  | ok node =>
    obtain ⟨id, found, there⟩ := FileSystem.find_of_lookup looked
    have only : ∀ other, w.files.find w.here path = .ok other ↔ id = other := by
      simp [found]
    simp only [only, exists_eq_left', there]
    cases node with
    | directory access parent own entries => cases through : access.execute <;> simp [through]
    | file access data program => simp
    | link target => simp
    | device device => simp

theorem go_cases (w : World) (target : String) :
    (∃ directory, (expandHome w.session target).map w.session.resolve = some directory ∧
      directoryError? w directory = none ∧ runCd.go target w = .ok 0 (w.goneTo directory)) ∨
    ((∀ directory, (expandHome w.session target).map w.session.resolve = some directory →
        directoryError? w directory ≠ none) ∧
      ∃ reason, runCd.go target w = runCd.fail reason w) := by
  unfold runCd.go
  simp only [bind_apply, get_apply]
  cases expandHome w.session target with
  | none => exact .inr ⟨nofun, _, rfl⟩
  | some path =>
    dsimp only [Option.map_some]
    cases refused : directoryError? w (w.session.resolve path) with
    | none => exact .inl ⟨_, rfl, refused, by simp [World.goneTo]⟩
    | some e =>
      refine .inr ⟨?_, _, rfl⟩
      rintro _ ⟨⟩
      simp [refused]

/-- Either the session goes to the directory that `cd` is asked for, or this fails for a reason. -/
theorem runCd_cases (w : World) (arguments : List String) :
    (∃ directory, destination? w.session arguments = some directory ∧
      directoryError? w directory = none ∧
      run .cd arguments w = .ok 0 (w.goneTo directory)) ∨
    ((∀ directory, destination? w.session arguments = some directory →
        directoryError? w directory ≠ none) ∧
      ∃ reason, run .cd arguments w = runCd.fail reason w) := by
  match arguments with
  | [] => exact go_cases w "~"
  | [target] => exact go_cases w target
  | _ :: _ :: _ => exact .inr ⟨nofun, _, rfl⟩

/-- Where errors are taken, `cd` says why it fails and leaves it at that. -/
theorem fail_said (takes : w.TakesErrors) (reason : String) :
    ∃ v, runCd.fail reason w = .ok 1 v ∧ w.Says s!"cd: {reason}" v := by
  obtain ⟨v, reported, said⟩ := report_said takes s!"cd: {reason}"
  exact ⟨v, by simp [runCd.fail, reported], said⟩

/-- The status tells whether `cd` has gone to the directory. -/
theorem runCd_eq_ok_zero_iff {arguments : List String} {v : World} :
    run .cd arguments w = .ok 0 v ↔ ∃ directory,
      destination? w.session arguments = some directory ∧
      directoryError? w directory = none ∧ v = w.goneTo directory := by
  rcases runCd_cases w arguments with ⟨directory, asked, fine, ran⟩ | ⟨refused, reason, ran⟩
  · rw [ran]
    constructor
    · rintro ⟨⟩
      exact ⟨directory, asked, fine, rfl⟩
    · rintro ⟨directory', asked', _, rfl⟩
      rw [Option.some.inj (asked.symm.trans asked')]
  · rw [ran]
    constructor
    · -- what fails comes to another status, or to none if that cannot even be said
      intro failed
      simp only [runCd.fail, bind_apply] at failed
      cases reported : report s!"cd: {reason}" w with
      | ok _ u => simp [reported] at failed
      | error fault u => simp [reported] at failed
    · rintro ⟨directory, asked, fine, _⟩
      exact absurd fine (refused directory asked)

/-- A directory is fit to go to or not, wherever the session has gone before. -/
theorem directoryError?_goneTo (w : World) (directory path : String) :
    directoryError? (w.goneTo directory) path = directoryError? w path := by
  have files : (w.goneTo directory).files = w.files := World.note_files _ _ _ _
  have here : (w.goneTo directory).here = w.here := World.note_here _ _ _ _
  unfold directoryError?
  rw [files, here]

end Builtin

/-! ## Launching afterwards -/

/-- A program can be given the variables. -/
def Environment.IsValid (env : Environment) : Prop :=
  ∀ entry ∈ env, '=' ∉ entry.1.toList ∧ ¬ holdsNull entry.1 ∧ ¬ holdsNull entry.2

instance : DecidablePred Environment.IsValid :=
  fun env => inferInstanceAs (Decidable (∀ entry ∈ env, _))

namespace World

/-- A launch in the directory of the session comes to its end. The directory is entered, and if
the launch is refused it is for what stands behind the path, which is a file that may be launched
if the directory is known by an absolute path. -/
def LaunchesInside (v : World) (name path : String) (arguments : List String) : Prop :=
  let file := Path.join v.session.cwd path
  ∃ directory outcome after, v.files.enter v.here v.session.cwd = .ok directory ∧
    Act.launch Act.start name path arguments v = .ok outcome after ∧
    (∀ e, outcome = .error e →
      v.files.image (Act.openNodes v) directory file arguments v.session.env = .error e) ∧
    (Path.isAbsolute v.session.cwd → ∃ held, v.files.openToLaunch [] directory file = .ok held)

variable {v : World} {name path : String} {arguments : List String} {directory : NodeId}

theorem handoverFault?_eq_none {file : String} {s : Session} (clean : ¬ holdsNull file)
    (given : ∀ argument ∈ arguments, ¬ holdsNull argument) (cwd : ¬ holdsNull s.cwd)
    (valid : s.env.IsValid) : Act.handoverFault? file arguments s = none := by
  unfold Act.handoverFault?
  split
  case isTrue equals =>
    obtain ⟨entry, listed, inside⟩ := List.any_eq_true.1 equals
    exact absurd (by simpa using inside) (valid entry listed).1
  case isFalse =>
    split
    case isTrue holds =>
      simp only [Bool.or_eq_true, List.any_eq_true] at holds
      rcases holds with ((holds | ⟨argument, listed, holds⟩) | holds) | ⟨entry, listed, holds⟩
      · exact absurd holds clean
      · exact absurd holds (given argument listed)
      · exact absurd holds cwd
      · exact (holds.elim (valid entry listed).2.1 (valid entry listed).2.2).elim
    case isFalse => rfl

/-- What was found can be handed over, and so can the name that it was looked for by. -/
theorem not_holdsNull_of_mem_candidates (plain : v.files.IsPlain)
    (listed : path ∈ v.candidates name) :
    ¬ holdsNull (Path.join v.session.cwd path) ∧ ¬ holdsNull name := by
  obtain ⟨_, _, _, _, found, _⟩ :=
    FileSystem.exists_file_of_hasExecutable (isExecutable_of_mem_candidates listed)
  have clean := FileSystem.not_holdsNull_of_find plain found
  refine ⟨clean, fun holds => clean ?_⟩
  obtain ⟨_, found⟩ := mem_candidates.1 listed
  split at found
  · rw [found.1]
    exact Path.holdsNull_join _ holds
  · obtain ⟨dir, _, _, rfl⟩ := found
    exact Path.holdsNull_join _ (Path.holdsNull_join _ holds)

theorem handoverFault?_of_mem_candidates (plain : v.files.IsPlain)
    (cwd : ¬ holdsNull v.session.cwd) (listed : path ∈ v.candidates name)
    (given : ∀ argument ∈ arguments, ¬ holdsNull argument) (valid : v.session.env.IsValid) :
    Act.handoverFault? (Path.join v.session.cwd path) (name :: arguments) v.session = none := by
  obtain ⟨clean, named⟩ := not_holdsNull_of_mem_candidates plain listed
  exact handoverFault?_eq_none clean (List.forall_mem_cons.2 ⟨named, given⟩) cwd valid

/-- An absolute path leads to what was found from every directory. -/
theorem openToLaunch_of_mem_candidates (absolute : Path.isAbsolute v.session.cwd)
    (listed : path ∈ v.candidates name) (directory : NodeId) :
    ∃ held, v.files.openToLaunch [] directory (Path.join v.session.cwd path) = .ok held := by
  apply FileSystem.openToLaunch_of_hasExecutable
  rw [hasExecutable_of_isAbsolute v.files (Path.isAbsolute_join absolute path) directory v.here]
  exact isExecutable_of_mem_candidates listed

/-- Behind the directory nothing but the program can be missing for a child. -/
theorem prepareChild_of_enter {before : World} (same : before.SharesState v)
    (entered : v.files.enter v.here v.session.cwd = .ok directory) (file : String)
    (arguments : List String) : Act.prepareChild before file arguments =
      (v.files.image (Act.openNodes v) directory file arguments v.session.env).map fun image =>
        (image.program, { arguments := image.arguments, env := v.session.env, directory }) := by
  rw [same.prepareChild_eq, Act.prepareChild, entered]
  rfl

/-- Where the directory of the session can be entered, a program that was found is launched. -/
theorem launchesInside_of_enter (plain : v.files.IsPlain)
    (entered : v.files.enter v.here v.session.cwd = .ok directory)
    (listed : path ∈ v.candidates name) (given : ∀ argument ∈ arguments, ¬ holdsNull argument)
    (valid : v.session.env.IsValid) : v.LaunchesInside name path arguments := by
  have there := fun absolute => openToLaunch_of_mem_candidates absolute listed directory
  have cwd := FileSystem.not_holdsNull_of_find plain (FileSystem.find_of_enter entered)
  have accepted := handoverFault?_of_mem_candidates plain cwd listed given valid
  -- what the launch notes before makes no difference to what it sees
  let before := v.flushTerminals.note .debug .execution
    s!"launching {path} as {Text.quote name} with {Text.quoteList arguments}"
  have same : before.SharesState v :=
    (note_sharesState _ _ _ _).trans v.flushTerminals_sharesState
  have launched : Act.launch Act.start name path arguments v =
      Act.start name (Path.join before.session.cwd path) arguments before := rfl
  rw [same.session, Act.start_apply, same.session, accepted, prepareChild_of_enter same entered]
    at launched
  rw [LaunchesInside, launched]
  cases behind : v.files.image (Act.openNodes v) directory (Path.join v.session.cwd path) arguments
      v.session.env with
  | error e =>
    refine ⟨directory, .error e, before, entered, rfl, ?_, there⟩
    rintro _ ⟨⟩
    exact behind
  | ok image => exact ⟨directory, _, _, entered, rfl, nofun, there⟩

end World

namespace Builtin

open Act

variable {w : World}

/-- `cd` goes to the directory that it is asked for and changes nothing else but the log, or it
says why not in one line and changes nothing at all. It goes exactly where a process may go, and
no program that is found afterwards is refused for the directory that it is to run in. -/
theorem goes_or_stays (plain : w.files.IsPlain) (takes : w.TakesErrors) (arguments : List String) :
    ((∃ directory, destination? w.session arguments = some directory ∧
        run .cd arguments w = .ok 0 (w.goneTo directory) ∧
        (w.echo = none → (w.goneTo directory).terminals = w.terminals)) ∨
      ∃ (reason : String) (v : World), run .cd arguments w = .ok 1 v ∧ w.Says s!"cd: {reason}" v ∧
        v.session = w.session) ∧
    (∀ directory, destination? w.session arguments = some directory →
      ((∃ v, run .cd arguments w = .ok 0 v) ↔ w.files.CanEnter w.here directory)) ∧
    ∀ v, run .cd arguments w = .ok 0 v → ∀ name path given, path ∈ v.candidates name →
      (∀ argument ∈ given, ¬ holdsNull argument) → v.session.env.IsValid →
      v.LaunchesInside name path given := by
  refine ⟨?_, fun directory asked => ?_, fun v ran name path given listed clean valid => ?_⟩
  · rcases runCd_cases w arguments with ⟨directory, asked, _, ran⟩ | ⟨_, reason, ran⟩
    · refine .inl ⟨directory, asked, ran, fun quiet => ?_⟩
      simp [World.goneTo, World.note, quiet]
    · obtain ⟨v, failed, said⟩ := fail_said takes reason
      exact .inr ⟨reason, v, ran.trans failed, said, said.session⟩
  · rw [FileSystem.canEnter_iff plain, ← directoryError?_eq_none_iff]
    constructor
    · rintro ⟨v, ran⟩
      obtain ⟨directory', asked', fine, _⟩ := runCd_eq_ok_zero_iff.1 ran
      rwa [Option.some.inj (asked.symm.trans asked')]
    · intro fine
      exact ⟨_, runCd_eq_ok_zero_iff.2 ⟨directory, asked, fine, rfl⟩⟩
  · obtain ⟨directory, _, fine, rfl⟩ := runCd_eq_ok_zero_iff.1 ran
    obtain ⟨id, entered⟩ := directoryError?_eq_none_iff.1 fine
    have files : (w.goneTo directory).files = w.files := World.note_files _ _ _ _
    have here : (w.goneTo directory).here = w.here := World.note_here _ _ _ _
    have entered' : (w.goneTo directory).files.enter (w.goneTo directory).here
        (w.goneTo directory).session.cwd = .ok id := by
      rw [files, here]
      exact entered
    exact World.launchesInside_of_enter (files ▸ plain) entered' listed clean valid

/-- What `cd ..` does in a directory beside that of a program, which is launched then. -/
theorem goes_besideBin : World.besideBin.files.IsPlain ∧ World.besideBin.TakesErrors ∧
    ∃ v, run .cd [".."] World.besideBin = .ok 0 v ∧ v.session.cwd = "/" ∧
      v.LaunchesInside "tool" "../bin/tool" ["x"] := by
  have plain : World.besideBin.files.IsPlain := by decide
  have takes : World.besideBin.TakesErrors := World.IsIdle.takesErrors rfl
  have gone := goes_or_stays plain takes [".."]
  have asked : destination? World.besideBin.session [".."] = some "/" := by decide
  have enters : World.besideBin.files.CanEnter World.besideBin.here "/" :=
    ⟨by decide, 0, _, _, _, _, rfl, rfl, rfl⟩
  obtain ⟨v, ran⟩ := (gone.2.1 "/" asked).2 enters
  rcases gone.1 with ⟨directory, asked', ran', _⟩ | ⟨reason, u, stayed, _⟩
  · obtain rfl : "/" = directory := Option.some.inj (asked.symm.trans asked')
    have listed : "../bin/tool" ∈ (World.besideBin.goneTo "/").candidates "tool" := by
      decide +kernel
    refine ⟨plain, takes, _, ran', rfl, ?_⟩
    exact gone.2.2 _ ran' _ _ _ listed (by decide) (by decide)
  · rw [ran] at stayed
    cases stayed

end Builtin

end LineShell
