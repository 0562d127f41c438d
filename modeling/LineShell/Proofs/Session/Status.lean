import LineShell.CommandLine
import LineShell.Proofs.Session.Children
import LineShell.Proofs.Session.Invariant

/-!
# Statuses

Every status that the shell gives is one that a process can end with: those of the builtins by
themselves (`Builtin.run_gives`), and those of children because an operating system reports no
other ones (`execute_isStatus`). A line keeps `World.IsOrderly` (`exists_runs`), so a shell
that has read its input ends with such a status (`readAll_exit`).

Main statement: `statuses_of_isOrderly`.
-/

namespace LineShell

open Relation (ReflTransGen)
open Act (Takes state)

/-! ## What actions give -/

namespace Act

variable {α β : Type} {good : α → Prop}

/-- Whatever an action gives is good. -/
def Gives (good : α → Prop) (act : Act α) : Prop :=
  ∀ ⦃w a after⦄, act w = .ok a after → good a

theorem Gives.pure {a : α} (h : good a) : Gives good (Pure.pure a) := by
  rintro w _ after ⟨⟩
  exact h

theorem Gives.bind {act : Act β} {next : β → Act α} (rest : ∀ b, Gives good (next b)) :
    Gives good (act >>= next) := by
  intro w a after ended
  rw [bind_apply] at ended
  cases ran : act w with
  | ok b v =>
    rw [ran] at ended
    exact rest b ended
  | error fault v =>
    rw [ran] at ended
    cases ended

end Act

/-! ## Builtins -/

namespace Builtin

open Act

theorem stop_gives (n : Int) : Gives IsStatus (runExit.stop n) :=
  .bind fun _ => .pure (isStatus_emod n)

theorem runExit_gives (arguments : List String) : Gives IsStatus (runExit arguments) := by
  unfold runExit
  match arguments with
  | [] => exact stop_gives 0
  | [argument] =>
    dsimp only
    cases Text.integer? argument with
    | some n => exact stop_gives n
    | none => exact .bind fun _ => stop_gives 2
  | _ :: _ :: _ => exact .bind fun _ => .pure (by decide)

theorem fail_gives (reason : String) : Gives IsStatus (runCd.fail reason) :=
  .bind fun _ => .pure (by decide)

theorem go_gives (target : String) : Gives IsStatus (runCd.go target) := by
  apply Gives.bind
  intro w
  cases expandHome w.session target with
  | none => exact fail_gives _
  | some path =>
    dsimp only
    cases directoryError? w (w.session.resolve path) with
    | some e => exact fail_gives _
    | none => exact .bind fun _ => .bind fun _ => .pure (by decide)

theorem runCd_gives (arguments : List String) : Gives IsStatus (runCd arguments) := by
  unfold runCd
  match arguments with
  | [] => exact go_gives "~"
  | [target] => exact go_gives target
  | _ :: _ :: _ => exact fail_gives _

/-- The statuses that tell whether all went well. -/
theorem isStatus_ite (fine : Bool) : IsStatus (if fine then 0 else 1) := by
  cases fine <;> decide

theorem runType_gives (arguments : List String) : Gives IsStatus (runType arguments) := by
  unfold runType
  extract_lets names
  split
  · exact .bind fun _ => .pure (by decide)
  · exact .bind fun found => .bind fun _ => .pure (isStatus_ite found)

theorem run_gives (b : Builtin) (arguments : List String) : Gives IsStatus (b.run arguments) := by
  cases b with
  | exit => exact runExit_gives arguments
  | echo => exact .bind fun _ => .bind fun _ => .pure (by decide)
  | pwd => exact .bind fun w => .bind fun _ => .bind fun _ => .pure (by decide)
  | cd => exact runCd_gives arguments
  | type => exact runType_gives arguments
  | cat => exact .bind fun complete => .bind fun _ => .pure (isStatus_ite complete)

end Builtin

/-! ## Commands -/

namespace Act

variable {w after : World} {status : Int}

theorem launchStatus_isStatus {name : String} {outcome : Except Errno Int}
    (reported : ∀ n, outcome = .ok n → IsStatus n) :
    Gives IsStatus (launchStatus name outcome) := by
  cases outcome with
  | ok n => exact .pure (reported n rfl)
  | error e => exact .bind fun _ => .pure (by decide)

/-- What a child is reported to end with is a status. -/
theorem start_isStatus (signals : w.files.DieOfSignals) {name file : String}
    {arguments : List String} {outcome : Except Errno Int}
    (started : start name file arguments w = .ok outcome after) :
    ∀ n, outcome = .ok n → IsStatus n := by
  rintro n rfl
  unfold start at started
  simp only [bind_apply, get_apply] at started
  cases refused : handoverFault? file (name :: arguments) w.session with
  | some fault =>
    rw [refused] at started
    cases started
  | none =>
    rw [refused] at started
    simp only [runChild, bind_apply, get_apply] at started
    cases prepared : prepareChild w file arguments with
    | error e =>
      rw [prepared] at started
      cases started
    | ok pair =>
      obtain ⟨program, child⟩ := pair
      rw [prepared] at started
      cases started
      have held := holds_of_prepareChild prepared
      exact Ending.isStatus (Child.run_isReportable (signals program held) w)

theorem dispatch_isStatus (signals : w.files.DieOfSignals) {name : String}
    {arguments : List String} (ended : dispatch .usual name arguments w = .ok status after) :
    IsStatus status := by
  unfold dispatch at ended
  cases found : Builtin.ofName? name with
  | some b =>
    rw [found] at ended
    exact Gives.bind (fun _ => b.run_gives arguments) ended
  | none =>
    rw [found] at ended
    simp only [bind_apply, findProgram_apply] at ended
    have notFound : IsStatus notFoundStatus := by decide
    cases search : (w.candidates name).head? with
    | none =>
      rw [search] at ended
      exact Gives.bind (fun _ => .pure notFound) ended
    | some path =>
      rw [search] at ended
      simp only [bind_apply, launch_apply] at ended
      have same := w.beforeStart_sharesState name arguments path
      cases started : Workers.usual.program name (Path.join w.session.cwd path) arguments
          (w.beforeStart name path arguments) with
      | error fault v =>
        rw [started] at ended
        cases ended
      | ok outcome v =>
        rw [started] at ended
        exact launchStatus_isStatus (start_isStatus (same.files ▸ signals) started) ended

theorem perform_isStatus (signals : w.files.DieOfSignals) {name : String} {c : Command}
    (ended : perform .usual name c w = .ok status after) : IsStatus status := by
  have steps : w.Steps emptyRelation (state (openRedirects c w)) := openRedirects_takes c w
  unfold perform at ended
  rw [bind_apply] at ended
  cases opened : openRedirects c w with
  | error fault v =>
    rw [opened] at ended
    cases ended
  | ok refusal v =>
    rw [opened] at ended steps
    cases refusal with
    | some refusal => exact Gives.bind (fun _ => .pure (by decide)) ended
    | none =>
      -- opening files brings no program into the tree
      exact dispatch_isStatus (signals.of_edits (World.Steps.files steps)) ended

theorem execute_isStatus (signals : w.files.DieOfSignals) (kept : IsStatus w.session.status)
    {c : Command} (ended : execute c w = .ok status after) : IsStatus status := by
  unfold execute executeBy at ended
  cases named : c.name with
  | none =>
    rw [named] at ended
    cases ended
    exact kept
  | some name =>
    rw [named] at ended
    simp only [completing, closing, bind_apply] at ended
    cases performed : perform .usual name c w with
    | error fault v =>
      rw [performed] at ended
      cases ended
    | ok n v =>
      rw [performed] at ended
      cases ended
      exact perform_isStatus signals performed

end Act

/-! ## Lines -/

namespace World

/-- A world between two lines in which all statuses are those of processes and will remain so. -/
structure IsOrderly (w : World) : Prop where
  idle : w.IsIdle
  status : IsStatus w.session.status
  exit : ∀ code ∈ w.session.exit, IsStatus code
  signals : w.files.DieOfSignals

variable {w v : World}

/-- The statuses to end with stay in their range whatever moves there are. -/
theorem isStatus_exit_of_moves {parsed : Except ParseError Command} {s t : Session}
    (moves : ReflTransGen (Session.Moves parsed) s t) (exit : ∀ code ∈ s.exit, IsStatus code) :
    ∀ code ∈ t.exit, IsStatus code := by
  induction moves with
  | refl => exact exit
  | tail _ move ih =>
    cases move with
    | works _ move =>
      cases move with
      | goes => exact ih
      | stops _ _ n =>
        rintro code ⟨⟩
        exact isStatus_emod n
    | keeps => exact ih

end World

namespace Act

variable {w : World}

/-- A command is carried out to its end, and the session keeps what it came to. -/
theorem runCommand_status (orderly : w.IsOrderly) (line : String) (c : Command) :
    ∃ after, runCommand line c w = .ok () after ∧ IsStatus after.session.status ∧
      (∀ status v, execute c w = .ok status v → after.session.status = status) ∧
      (∀ fault v, execute c w = .error fault v → after.session.status = failureStatus) := by
  have idle := execute_isIdle c orderly.idle
  simp only [runCommand, tryCatch_apply, discard_apply]
  cases ran : execute c w with
  | ok status v =>
    have kept := execute_status ran
    have inRange := execute_isStatus orderly.signals orderly.status ran
    refine ⟨v, rfl, by rwa [kept], ?_, ?_⟩
    · rintro _ _ ⟨⟩
      exact kept
    · rintro _ _ ⟨⟩
  | error fault v =>
    rw [run, ran] at idle
    obtain ⟨after, reported, _, failed⟩ := reportFault_apply line fault idle
    refine ⟨after, reported, by rw [failed]; decide, ?_, fun _ _ _ => failed⟩
    rintro _ _ ⟨⟩

end Act

namespace World

variable {w v : World}

/-- What becomes of a line: it is carried out to its end, and the status tells how. -/
structure Runs (w : World) (line : String) (after : World) : Prop where
  ends : Act.runLine line w = .ok () after
  void : Text.isVoid line → after = w
  read : ¬ Text.isVoid line → ∃ read, Act.parseLine line w = .ok (Command.meantBy line) read ∧
    (∀ e, Command.meantBy line = .error e → after.session.status = 2) ∧
    ∀ c, Command.meantBy line = .ok c →
      (∀ status v, Act.execute c read = .ok status v → after.session.status = status) ∧
      (∀ fault v, Act.execute c read = .error fault v → after.session.status = 1) ∧
      ∀ signal, read.RunsChild c (.killed signal) → after.session.status = 128 + signal

/-- A line keeps a world orderly if its own status is in the range. -/
theorem Runs.isOrderly {line : String} {after : World} (runs : w.Runs line after)
    (orderly : w.IsOrderly) (inRange : IsStatus after.session.status) : after.IsOrderly := by
  have steps := Act.runLine_takes line w
  have idle := Act.runLine_isIdle line orderly.idle
  rw [Act.run, runs.ends] at idle
  rw [runs.ends] at steps
  exact ⟨idle, inRange, isStatus_exit_of_moves (Steps.session steps) orderly.exit,
    orderly.signals.of_edits (Steps.files steps)⟩

/-- A line is carried out to its end, and what it leaves is orderly. -/
theorem exists_runs (orderly : w.IsOrderly) (line : String) :
    ∃ after, w.Runs line after ∧ after.IsOrderly := by
  by_cases void : Text.isVoid line
  · have ran : Act.runLine line w = .ok () w := by simp [Act.runLine, void]
    exact ⟨w, ⟨ran, fun _ => rfl, fun other => absurd void other⟩, orderly⟩
  obtain ⟨read, parsed, session, files, redirects⟩ := Act.parseLine_apply line w
  change Act.parseLine line w = .ok (Command.meantBy line) read at parsed
  have orderly' : read.IsOrderly :=
    ⟨redirects.trans orderly.idle, session ▸ orderly.status, session ▸ orderly.exit,
      files ▸ orderly.signals⟩
  suffices course : ∃ after, w.Runs line after ∧ IsStatus after.session.status by
    obtain ⟨after, runs, inRange⟩ := course
    exact ⟨after, runs, runs.isOrderly orderly inRange⟩
  cases meant : Command.meantBy line with
  | error e =>
    rw [meant] at parsed
    have reported := Act.report_apply (orderly'.idle.get .err) s!"minishell: {e.message}"
    have syntaxError : IsStatus Act.syntaxStatus := by decide
    refine ⟨_, ⟨by simp [Act.runLine, void, parsed, reported]; rfl, fun h => absurd h void,
      fun _ => ⟨read, by rw [parsed, meant], fun _ _ => rfl, ?_⟩⟩, syntaxError⟩
    intro c other
    rw [meant] at other
    cases other
  | ok c =>
    rw [meant] at parsed
    obtain ⟨after, ran, inRange, ended, failed⟩ := Act.runCommand_status orderly' line c
    refine ⟨after, ⟨by simp [Act.runLine, void, parsed, ran], fun h => absurd h void,
      fun _ => ⟨read, by rw [parsed, meant], ?_, ?_⟩⟩, inRange⟩
    · intro e other
      rw [meant] at other
      cases other
    · intro d same
      rw [meant] at same
      cases same
      refine ⟨ended, failed, fun signal runs => ?_⟩
      obtain ⟨last, executed⟩ := Act.execute_runsChild runs
      exact ended _ _ executed

theorem IsOrderly.runLines (orderly : w.IsOrderly) (lines : List String) :
    (w.runLines lines).IsOrderly := by
  induction lines generalizing w with
  | nil => exact orderly
  | cons line lines ih =>
    obtain ⟨after, runs, orderly'⟩ := exists_runs orderly line
    have reached : w.after line = after := by
      rw [World.after, Act.run, runs.ends]
    rw [runLines_cons, reached]
    exact ih orderly'

/-! ## Scripts -/

/-- A shell that has read its input has a status to end with. -/
theorem readAll_exit (orderly : w.IsOrderly) (reader : Reader) (items : List Item) :
    ∃ code, (w.readAll reader id items).session.exit = some code ∧ IsStatus code := by
  obtain ⟨_, same, _⟩ := course reader ⟨rfl, rfl⟩ orderly.idle items
  have folded := orderly.runLines (Item.lines (w.readItems items))
  rw [same.session]
  generalize w.runLines (Item.lines (w.readItems items)) = v at folded
  by_cases stopped : v.session.isStopped
  · obtain ⟨code, exit⟩ := Option.isSome_iff_exists.1 stopped
    rw [if_pos stopped]
    exact ⟨code, exit, folded.exit code exit⟩
  · rw [if_neg stopped]
    exact ⟨v.session.status, rfl, folded.status⟩

end World

/-- Eight bits are enough for the status of a process. -/
theorem exitCode_toNat {n : Int} (inRange : IsStatus n) : ((exitCode n).toNat : Int) = n := by
  obtain ⟨low, high⟩ := inRange
  have small : (n % 256).toNat < 2 ^ 32 := by omega
  rw [exitCode, UInt32.toNat_ofNat_of_lt' small]
  omega

namespace World

variable {w : World}

/-- The shell itself ends with a status of a process, whatever its arguments. -/
theorem start_isStatus (orderly : w.IsOrderly) (stamp : String) (arguments : List String)
    (input : String) : IsStatus (w.start stamp arguments input).1 := by
  unfold start
  split
  · change IsStatus CommandLine.usageStatus
    decide
  · change IsStatus 0
    decide
  · rename_i color _
    have prepared : (w.prepare stamp color).IsOrderly :=
      ⟨orderly.idle, orderly.status, orderly.exit, orderly.signals⟩
    obtain ⟨code, exit, inRange⟩ := readAll_exit prepared _ _
    dsimp only
    rw [exit]
    exact inRange

/-- Each line is carried out to its end, and its status is the one that its course calls for.
All statuses remain in the range of those that a process can end with, so the status that the
loop ends with, on whatever script, is the exit code of the process. -/
theorem statuses_of_isOrderly (orderly : w.IsOrderly) :
    (∀ line, ∃ after, w.Runs line after ∧ after.IsOrderly) ∧
    (∀ reader items, ∃ code, (w.readAll reader id items).session.exit = some code ∧
      IsStatus code ∧ ((exitCode code).toNat : Int) = code) ∧
    ∀ stamp arguments input, let code := (w.start stamp arguments input).1
      IsStatus code ∧ ((exitCode code).toNat : Int) = code := by
  refine ⟨exists_runs orderly, fun reader items => ?_, fun stamp arguments input => ?_⟩
  · obtain ⟨code, exit, inRange⟩ := readAll_exit orderly reader items
    exact ⟨code, exit, inRange, exitCode_toNat inRange⟩
  · have inRange := start_isStatus orderly stamp arguments input
    exact ⟨inRange, exitCode_toNat inRange⟩

/-- A shell in a tree with a program that is killed when it is run. -/
def mortal : World :=
  { bare with files := ⟨#[.directory FileSystem.fullAccess FileSystem.root "" [("die", 1)],
      .file FileSystem.fullAccess #[] (some (.actions [.die 9]))]⟩ }

theorem mortal_isOrderly : mortal.IsOrderly := by
  refine ⟨rfl, by decide, by rintro code ⟨⟩, ?_⟩
  rintro program ⟨id, access, data, found⟩
  match id with
  | 0 => cases found
  | 1 =>
    cases found
    intro signal listed
    cases listed with
    | head => exact ⟨by decide, by decide⟩
    | tail _ none => cases none
  | id + 2 => cases found

theorem statuses_of_mortal : mortal.IsOrderly ∧
    ∃ after, mortal.Runs "/die" after ∧ after.session.status = 128 + 9 := by
  obtain ⟨after, runs, _⟩ := (statuses_of_isOrderly mortal_isOrderly).1 "/die"
  obtain ⟨read, parsed, _, ended⟩ := runs.read (by decide)
  have killed : read.RunsChild { name := some "/die" } (.killed 9) := by
    cases parsed
    exact ⟨"/die", "/die", _, .actions [.die 9], ⟨[], [], FileSystem.root⟩, rfl,
      by decide, rfl, rfl, rfl, rfl, rfl⟩
  exact ⟨mortal_isOrderly, after, runs, (ended _ rfl).2.2 9 killed⟩

end World

end LineShell
