import LineShell.Proofs.Execution.Closing

/-!
# Where the work of a command goes

A command without redirections hands its work to a builtin, starts a program, or does
neither. Which of these it is does not depend on who does the work: an equation for
`Act.executeBy` that holds for all `Workers` pins down what they are asked for, and with
which arguments (`World.RunsBuiltin`, `World.StartsProgram`, `World.StartsNothing`).

Main statements: one equation for each of the three courses (`executeBy_builtin`,
`executeBy_program`, `executeBy_missing`), and that no command takes two of them
(`not_startsProgram_of_runsBuiltin`, `not_startsNothing_of_runsBuiltin`,
`not_startsNothing_of_startsProgram`).
-/

namespace LineShell

namespace World

theorem candidates_note (w : World) (level : Log.Level) (source : Log.Source)
    (message name : String) :
    (w.note level source message).candidates name = w.candidates name := by
  unfold candidates isExecutable
  rw [note_files, note_here, note_session]

/-- The world after a program was looked up. -/
def afterSearch (w : World) (name : String) : World :=
  let shown := match (w.candidates name).head? with
    | some path => Text.quote path
    | none => "None"
  w.note .debug .search s!"resolved {Text.quote name} to {shown}"

theorem afterSearch_err (w : World) (name : String) : ∃ shown, (w.echo = none → shown = []) ∧
    (w.afterSearch name).terminals.err.shown = w.terminals.err.shown ++ shown :=
  note_err w _ _ _

/-- The world in which a program is started: nothing that the shell printed still waits. -/
def beforeStart (w : World) (name path : String) (arguments : List String) : World :=
  (w.afterSearch name).flushTerminals.note .debug .execution
    s!"launching {path} as {Text.quote name} with {Text.quoteList arguments}"

end World

namespace Act

theorem findProgram_apply (name : String) (w : World) :
    findProgram name w = .ok (w.candidates name).head? (w.afterSearch name) := rfl

theorem openRedirects_none (command : Command) (h : command.stdout = none)
    (h' : command.stderr = none) (w : World) : openRedirects command w = .ok none w := by
  simp [openRedirects, openRedirect, h, h']

variable {w : World} {name : String} (workers : Workers) (arguments : List String)

theorem perform_plain :
    perform workers name { name := some name, arguments } w =
      dispatch workers name arguments w := by
  simp [perform, openRedirects_none]

theorem dispatch_builtin {b : Builtin} (h : Builtin.ofName? name = some b) :
    dispatch workers name arguments w = workers.builtin b arguments
      (w.note .debug .execution s!"builtin {b.name} {Text.quoteList arguments}") := by
  simp [dispatch, h]

theorem dispatch_missing (h : Builtin.ofName? name = none)
    (h' : (w.candidates name).head? = none) :
    dispatch workers name arguments w =
      (do report s!"{name}: command not found"; return notFoundStatus) (w.afterSearch name) := by
  simp [dispatch, h, findProgram_apply, h']

/-- A launch flushes the terminals, keeps a record and leaves the rest to the starter. -/
theorem launch_apply
    (starter : (name file : String) → (arguments : List String) → Act (Except Errno Int))
    (path : String) : launch starter name path arguments (w.afterSearch name) =
      starter name (Path.join w.session.cwd path) arguments
        (w.beforeStart name path arguments) := by
  have session : (w.afterSearch name).session = w.session := by simp [World.afterSearch]
  simp [launch, World.beforeStart, World.flushTerminals, session]

theorem dispatch_program (h : Builtin.ofName? name = none) {path : String}
    (h' : (w.candidates name).head? = some path) :
    dispatch workers name arguments w = (do
        let outcome ← workers.program name (Path.join w.session.cwd path) arguments
        launchStatus name outcome)
      (w.beforeStart name path arguments) := by
  simp [dispatch, h, findProgram_apply, h', launch_apply]

theorem executeBy_builtin {b : Builtin} (h : Builtin.ofName? name = some b) :
    executeBy workers { name := some name, arguments } w = completing (workers.builtin b arguments)
      (w.note .debug .execution s!"builtin {b.name} {Text.quoteList arguments}") := by
  apply completing_congr
  rw [perform_plain, dispatch_builtin workers arguments h]

theorem executeBy_missing (h : Builtin.ofName? name = none)
    (h' : (w.candidates name).head? = none) :
    executeBy workers { name := some name, arguments } w =
      completing (do report s!"{name}: command not found"; return notFoundStatus)
        (w.afterSearch name) := by
  apply completing_congr
  rw [perform_plain, dispatch_missing workers arguments h h']

theorem executeBy_program (h : Builtin.ofName? name = none) {path : String}
    (h' : (w.candidates name).head? = some path) :
    executeBy workers { name := some name, arguments } w =
      completing (do
          let outcome ← workers.program name (Path.join w.session.cwd path) arguments
          launchStatus name outcome)
        (w.beforeStart name path arguments) := by
  apply completing_congr
  rw [perform_plain, dispatch_program workers arguments h h']

end Act

namespace World

variable (w : World) (name : String) (arguments : List String)

/-- What a command can see is as it is in another world: only the log and the terminals may
differ. -/
structure SharesState (v w : World) : Prop where
  session : v.session = w.session
  files : v.files = w.files
  here : v.here = w.here
  redirects : v.redirects = w.redirects

theorem SharesState.trans {u v w : World} (h : u.SharesState v) (h' : v.SharesState w) :
    u.SharesState w :=
  ⟨h.session.trans h'.session, h.files.trans h'.files, h.here.trans h'.here,
    h.redirects.trans h'.redirects⟩

/-- The same child is prepared. -/
theorem SharesState.prepareChild_eq {v w : World} (h : v.SharesState w) (file : String)
    (arguments : List String) :
    Act.prepareChild v file arguments = Act.prepareChild w file arguments := by
  unfold Act.prepareChild Act.openNodes
  rw [h.files, h.here, h.session, h.redirects]

theorem note_sharesState (level : Log.Level) (source : Log.Source) (message : String) :
    (w.note level source message).SharesState w :=
  ⟨by simp, by simp, by simp, by simp⟩

theorem onTerminal_sharesState (c : Channel) (f : Terminal → Terminal) :
    (w.onTerminal c f).SharesState w :=
  ⟨rfl, rfl, rfl, rfl⟩

theorem flushTerminals_sharesState : w.flushTerminals.SharesState w :=
  ⟨rfl, rfl, rfl, rfl⟩

theorem beforeStart_sharesState (path : String) :
    (w.beforeStart name path arguments).SharesState w := by
  have searched : (w.afterSearch name).SharesState w := w.note_sharesState _ _ _
  have flushed := (w.afterSearch name).flushTerminals_sharesState.trans searched
  exact (note_sharesState _ _ _ _).trans flushed

end World

namespace Act

variable {w : World} {name path : String}

theorem start_apply (name file : String) (arguments : List String) (w : World) :
    start name file arguments w =
      match handoverFault? file (name :: arguments) w.session, prepareChild w file arguments with
      | some fault, _ => .error fault w
      | none, .error e => .ok (.error e) w
      | none, .ok (program, child) =>
        let (ending, after) := child.run program w
        .ok (.ok ending.status)
          (after.note .debug .execution s!"{name} exited with {ending.status}") := by
  simp only [start, bind_apply, get_apply]
  cases handoverFault? file (name :: arguments) w.session with
  | some fault => rfl
  | none =>
    simp only [runChild, bind_apply, get_apply]
    cases prepareChild w file arguments with
    | error e => rfl
    | ok prepared => rfl

/-- What comes of a program that is found. -/
theorem dispatch_found (free : Builtin.ofName? name = none)
    (found : (w.candidates name).head? = some path) (arguments : List String) :
    let file := Path.join w.session.cwd path
    let before := w.beforeStart name path arguments
    dispatch .usual name arguments w =
      match handoverFault? file (name :: arguments) before.session,
        prepareChild before file arguments with
      | some fault, _ => .error fault before
      | none, .error e => launchStatus name (.error e) before
      | none, .ok (program, child) =>
        let (ending, after) := child.run program before
        .ok ending.status
          (after.note .debug .execution s!"{name} exited with {ending.status}") := by
  intro file before
  have starter : Workers.usual.program = start := rfl
  rw [dispatch_program .usual arguments free found, bind_apply, starter, start_apply]
  cases handoverFault? file (name :: arguments) before.session with
  | some fault => rfl
  | none =>
    cases prepareChild before file arguments with
    | error e => rfl
    | ok prepared => rfl

end Act

namespace World

variable (w : World) (name : String) (arguments : List String)

/-- The command is carried out by a builtin of its name. -/
def RunsBuiltin : Prop :=
  ∃ (b : Builtin) (before : World), b.name = name ∧ before.SharesState w ∧ ∀ workers,
    Act.executeBy workers { name := some name, arguments } w =
      Act.completing (workers.builtin b arguments) before

/-- The command starts the program behind the path `file`, under its name and with its
arguments, and its status is what the launch comes to. -/
def StartsProgram (file : String) : Prop :=
  ∃ before : World, before.SharesState w ∧ ∀ workers,
    Act.executeBy workers { name := some name, arguments } w =
      Act.completing (do
          let outcome ← workers.program name file arguments
          Act.launchStatus name outcome)
        before

/-- The command starts nothing: it says so on the standard error, after the records that are
shown there, and its status is 127. -/
def StartsNothing : Prop :=
  ∃ (after : World) (shown : Bytes), (∀ workers,
      Act.executeBy workers { name := some name, arguments } w = .ok 127 after) ∧
    after.session = { w.session with status := 127 } ∧
    after.terminals.out.shown = w.terminals.out.shown ∧
    after.terminals.err.shown =
      w.terminals.err.shown ++ shown ++ w.errorLine s!"{name}: command not found" ∧
    (w.echo = none → shown = [])

/-- What is started is the program that is found first. -/
theorem startsProgram_of_found {w : World} {name path : String} (arguments : List String)
    (isOther : Builtin.ofName? name = none) (found : (w.candidates name).head? = some path) :
    w.StartsProgram name arguments (Path.join w.session.cwd path) :=
  ⟨_, w.beforeStart_sharesState name arguments path,
    fun workers => Act.executeBy_program workers arguments isOther found⟩

/-! ## One course only

Two courses are told apart by workers of which one refuses and the other one does not. -/

/-- Workers that refuse to carry out a builtin. -/
def noBuiltins : Workers :=
  { builtin := fun _ _ => throw .nullByte, program := fun _ _ _ => pure (.ok 0) }

/-- Workers that refuse to run the programs of which `p` holds. -/
def noProgram (p : String → Bool) : Workers :=
  { builtin := fun _ _ => pure 0
    program := fun _ file _ => if p file then throw .nullByte else pure (.ok 0) }

variable {w name arguments}

theorem not_startsProgram_of_runsBuiltin (h : w.RunsBuiltin name arguments) (file : String) :
    ¬ w.StartsProgram name arguments file := by
  rintro ⟨before', _, starts⟩
  obtain ⟨b, before, _, _, runs⟩ := h
  have same := (runs noBuiltins).symm.trans (starts noBuiltins)
  simp [Act.completing, Act.closing, noBuiltins, Act.launchStatus] at same

theorem not_startsNothing_of_runsBuiltin (h : w.RunsBuiltin name arguments) :
    ¬ w.StartsNothing name arguments := by
  rintro ⟨after, _, nothing, _⟩
  obtain ⟨b, before, _, _, runs⟩ := h
  have same := (runs noBuiltins).symm.trans (nothing noBuiltins)
  simp [Act.completing, Act.closing, noBuiltins] at same

theorem not_startsNothing_of_startsProgram {file : String}
    (h : w.StartsProgram name arguments file) : ¬ w.StartsNothing name arguments := by
  rintro ⟨after, _, nothing, _⟩
  obtain ⟨before, _, starts⟩ := h
  have same := (starts (noProgram fun _ => true)).symm.trans (nothing (noProgram fun _ => true))
  simp [Act.completing, Act.closing, noProgram] at same

/-- A command starts one program only. -/
theorem startsProgram_unique {file file' : String} (h : w.StartsProgram name arguments file)
    (h' : w.StartsProgram name arguments file') : file = file' := by
  obtain ⟨before, _, starts⟩ := h
  obtain ⟨before', _, starts'⟩ := h'
  -- workers that refuse the one program and no other one
  let only := noProgram fun f => f = file'
  have same := (starts only).symm.trans (starts' only)
  by_cases equal : file = file'
  · exact equal
  · simp [Act.completing, Act.closing, only, noProgram, equal, Act.launchStatus] at same

end World

end LineShell
