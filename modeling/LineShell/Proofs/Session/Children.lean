import LineShell.Proofs.Execution.Course
import LineShell.Proofs.OneRun.Streams

/-!
# How children end

An operating system reports an exit code of eight bits or one of 64 signals. A child ends so if
its program dies of signals only (`run_isReportable`), and then its status is one that a process
can end with (`Ending.isStatus`).

`World.RunsChild` says that a command comes to running a child. The status of the command is
then that of the ending (`execute_runsChild`).
-/

namespace LineShell

/-- A number that a process can end with. -/
def IsStatus (n : Int) : Prop :=
  0 ≤ n ∧ n ≤ 255

instance (n : Int) : Decidable (IsStatus n) :=
  inferInstanceAs (Decidable (0 ≤ n ∧ n ≤ 255))

theorem isStatus_emod (n : Int) : IsStatus (n % 256) := by
  unfold IsStatus
  omega

/-! ## Endings -/

/-- There is a signal of that number. -/
def IsSignal (n : Nat) : Prop :=
  1 ≤ n ∧ n ≤ 64

/-- The operating system can report the ending. -/
def Ending.IsReportable : Ending → Prop
  | .finished status => status ≤ 255
  | .killed signal => IsSignal signal

theorem Ending.isStatus {ending : Ending} (reportable : ending.IsReportable) :
    IsStatus ending.status := by
  cases ending with
  | finished status =>
    simp only [IsReportable] at reportable
    simp only [IsStatus, Ending.status]
    omega
  | killed signal =>
    simp only [IsReportable, IsSignal] at reportable
    simp only [IsStatus, Ending.status]
    omega

/-- Whatever a list of actions dies of is a signal. -/
def Action.DieOfSignals (actions : List Action) : Prop :=
  ∀ n, .die n ∈ actions → IsSignal n

def Program.DiesOfSignals : Program → Prop
  | .actions done => Action.DieOfSignals done
  | .scriptReader => True

/-- Every program of a tree that dies does so of a signal. -/
def FileSystem.DieOfSignals (fs : FileSystem) : Prop :=
  ∀ program, fs.Holds program → program.DiesOfSignals

theorem FileSystem.DieOfSignals.of_edits {fs gs : FileSystem} (signals : fs.DieOfSignals)
    (edits : fs.Edits gs) : gs.DieOfSignals :=
  fun program held => signals program (edits.holds held)

/-- Scripts do not die. -/
theorem Image.dieOfSignals_scriptActions (text : String) :
    Action.DieOfSignals (scriptActions text) := by
  intro n listed
  obtain ⟨line, _, spelled⟩ := List.mem_filterMap.1 listed
  unfold scriptAction? at spelled
  split at spelled
  · cases spelled
  · cases spelled
  · obtain ⟨status, _, other⟩ := Option.map_eq_some_iff.1 spelled
    cases other
  · cases spelled

namespace Child

variable {child : Child}

theorem dieOfSignals_actionsOf {program : Program} (signals : program.DiesOfSignals)
    (files : FileSystem) : Action.DieOfSignals (child.actionsOf files program) := by
  cases program with
  | actions actions => exact signals
  | scriptReader =>
    unfold actionsOf
    split
    · rename_i heq
      cases heq
    · split
      · nofun
      · split
        · exact Image.dieOfSignals_scriptActions _
        · intro n listed
          simp at listed
        · intro n listed
          obtain rfl : n = 9 := by simpa using listed
          exact ⟨by decide, by decide⟩

theorem runActions_isReportable {actions : List Action} (signals : Action.DieOfSignals actions)
    (w : World) : (child.runActions actions w).1.IsReportable := by
  induction actions generalizing w with
  | nil => exact Nat.zero_le 255
  | cons action actions ih =>
    have others : Action.DieOfSignals actions := fun n listed => signals n (.tail _ listed)
    cases action with
    | finish status => exact Nat.le_of_lt_succ (Nat.mod_lt status (by decide))
    | die signal => exact signals signal (.head _)
    | _ => exact ih others _

theorem run_isReportable {program : Program} (signals : program.DiesOfSignals) (w : World) :
    (child.run program w).1.IsReportable :=
  runActions_isReportable (dieOfSignals_actionsOf signals w.files) w

end Child

/-! ## Programs that are launched -/

namespace FileSystem

variable {fs : FileSystem} {busy : List NodeId} {here : NodeId}

theorem holds_of_openToLaunch {path : String} {data : Bytes} {program : Program}
    (opened : fs.openToLaunch busy here path = .ok (data, some program)) : fs.Holds program := by
  unfold openToLaunch at opened
  split at opened
  · cases opened
  · split at opened
    · rename_i found
      -- neither of the two refusals gives a program
      split at opened
      · cases opened
      · split at opened <;> cases opened
        exact ⟨_, _, _, found⟩
    · cases opened

theorem holds_of_imageWithin {depth : Nat} {path : String} {arguments : List String}
    {image : Image} (found : fs.imageWithin busy here depth path arguments = .ok image) :
    fs.Holds image.program := by
  induction depth generalizing path arguments with
  | zero =>
    unfold imageWithin at found
    split at found <;> cases found
  | succ depth ih =>
    unfold imageWithin at found
    split at found
    · cases found
    · rename_i opened
      cases found
      exact holds_of_openToLaunch opened
    · split at found
      · cases found
      · exact ih found

theorem holds_of_image {path : String} {arguments : List String} {env : List (String × String)}
    {image : Image} (found : fs.image busy here path arguments env = .ok image) :
    fs.Holds image.program := by
  unfold FileSystem.image at found
  split at found
  · cases found
  · split at found
    · exact holds_of_imageWithin found
    · cases found

end FileSystem

namespace Act

theorem holds_of_prepareChild {w : World} {file : String} {arguments : List String}
    {program : Program} {child : Child}
    (prepared : prepareChild w file arguments = .ok (program, child)) : w.files.Holds program := by
  unfold prepareChild at prepared
  cases entered : w.files.enter w.here w.session.cwd with
  | error e => simp [entered, bind, Except.bind] at prepared
  | ok directory =>
    cases found : w.files.image (openNodes w) directory file arguments w.session.env with
    | error e => simp [entered, found, bind, Except.bind] at prepared
    | ok image =>
      simp only [entered, found, bind, Except.bind, pure, Except.pure, Except.ok.injEq,
        Prod.mk.injEq] at prepared
      rw [← prepared.1]
      exact FileSystem.holds_of_image found

end Act

/-! ## Commands that run a child -/

/-- Carrying a command out comes to running a child, which ends so: its files are opened, a
program of its name is found and accepted, and its actions are carried out. -/
def World.RunsChild (w : World) (c : Command) (ending : Ending) : Prop :=
  ∃ name path opened program child, c.name = some name ∧ Builtin.ofName? name = none ∧
    Act.openRedirects c w = .ok none opened ∧ (opened.candidates name).head? = some path ∧
    let before := opened.beforeStart name path c.arguments
    let file := Path.join opened.session.cwd path
    Act.handoverFault? file (name :: c.arguments) before.session = none ∧
    Act.prepareChild before file c.arguments = .ok (program, child) ∧
    (child.run program before).1 = ending

namespace Act

variable {w : World}

/-- The status of a command that runs a child is the status of its ending. -/
theorem execute_runsChild {c : Command} {ending : Ending} (runs : w.RunsChild c ending) :
    ∃ after, execute c w = .ok ending.status after := by
  obtain ⟨name, path, opened, program, child, named, free, redirected, found, accepted, prepared,
    rfl⟩ := runs
  have dispatched := dispatch_found free found c.arguments
  simp only [accepted, prepared] at dispatched
  have performed : perform .usual name c w = dispatch .usual name c.arguments opened := by
    rw [perform, bind_apply, redirected]
  simp [execute, executeBy, named, completing, closing, performed, dispatched]

end Act

end LineShell
