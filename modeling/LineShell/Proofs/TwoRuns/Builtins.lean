import LineShell.Proofs.TwoRuns.InStep

/-!
# Builtins in two runs

A builtin asks about its world and says something; what it changes, it changes in the
session. `Printing R` is all that a relation has to promise about the texts that are said, and
`Reporting R` adds bytes that are passed on as they are. Each builtin needs besides that the
answers to its questions are the same on both sides: `exit`, `echo` and `pwd` ask nothing but the
session, `cd` asks for a directory and `type` for the programs of a name (`Answering R`), and `cat`
for what files hold.

Main statements: `Answering.run_respects` for the builtins that say texts only, and
`Correspondence.run_respects` for all of them, which leaves the files of `cat` to a condition.
-/

namespace LineShell

open Act Act.InStep

/-- Worlds that correspond have the same session, and what is said in both of them leaves
them corresponding: text on the standard output, and errors. -/
structure Printing (R : World → World → Prop) : Prop where
  session : ∀ {w v}, R w v → v.session = w.session
  debug : ∀ {w v} source message, R w v →
    R (w.note .debug source message) (v.note .debug source message)
  print : ∀ text, Respects R (print .out text)
  flush : Respects R (flush .out)
  report : ∀ message, Respects R (report message)

/-- Besides, bytes on the standard output leave the worlds corresponding. -/
structure Reporting (R : World → World → Prop) : Prop extends Printing R where
  printBytes : ∀ bytes, Respects R (printBytes .out bytes)

/-- Both worlds give the same answers about programs and directories, and the session may be
changed in both. -/
structure Answering (R : World → World → Prop) : Prop extends Printing R where
  candidates : ∀ {w v} name, R w v → v.candidates name = w.candidates name
  directoryError? : ∀ {w v} path, R w v →
    Builtin.directoryError? v path = Builtin.directoryError? w path
  remember : ∀ {w v} (f : Session → Session), R w v →
    R { w with session := f w.session } { v with session := f v.session }

/-- What a builtin asks or says is the same in both worlds, but for what files hold. -/
structure Correspondence (R : World → World → Prop) : Prop extends Reporting R, Answering R

namespace Printing

variable {R : World → World → Prop} (printing : Printing R)
include printing

theorem note_respects (source : Log.Source) (message : String) :
    Respects R (note .debug source message) :=
  modify_of fun _ _ => printing.debug source message

theorem printLine_respects (text : String) : Respects R (printLine .out text) :=
  bind (printing.print text) fun _ => printing.print "\n"

theorem printLines_respects (lines : List String) : Respects R (Builtin.printLines lines) := by
  induction lines with
  | nil => exact InStep.pure _
  | cons line lines ih =>
    unfold Builtin.printLines
    exact bind (printing.printLine_respects line) fun _ => ih

theorem runEcho_respects (arguments : List String) : Respects R (Builtin.runEcho arguments) := by
  unfold Builtin.runEcho
  apply bind (printing.printLine_respects _)
  intro _
  apply bind printing.flush
  intro _
  exact InStep.pure 0

theorem runPwd_respects : Respects R Builtin.runPwd := by
  unfold Builtin.runPwd
  apply get_bind
  intro w v related
  rw [printing.session related]
  apply bind (printing.printLine_respects _)
  intro _
  apply bind printing.flush
  intro _
  exact InStep.pure 0

/-- Reading a file is the same in both runs where the file holds the same, and so is what is
written of it. -/
theorem showFile_sameOutcome {name : String} {w v : World} (related : R w v)
    (agree : v.files.read v.here (v.session.resolve name) =
      w.files.read w.here (w.session.resolve name))
    (shown : holdsNull (w.session.resolve name) = false → ∀ bytes,
      w.files.read w.here (w.session.resolve name) = some (.ok bytes) →
      SameOutcome R (printBytes .out bytes w) (printBytes .out bytes v)) :
    SameOutcome R (Builtin.showFile name w) (Builtin.showFile name v) := by
  unfold Builtin.showFile
  rw [bind_apply, bind_apply, get_apply, get_apply]
  dsimp only
  rw [agree, printing.session related]
  cases null : holdsNull (w.session.resolve name) with
  | true =>
    -- the fault is not reported here but comes to the end of the command
    exact InStep.throw .nullByte related
  | false =>
    simp only [Bool.false_eq_true, if_false]
    cases read : w.files.read w.here (w.session.resolve name) with
    | none => exact InStep.throw .endless related
    | some outcome =>
      cases outcome with
      | ok bytes => exact (shown null bytes read).bind fun _ _ _ related => .ok true related
      | error e => exact bind (printing.report _) (fun _ => InStep.pure false) related

end Printing

namespace Reporting

variable {R : World → World → Prop} (reporting : Reporting R)
include reporting

theorem showFile_respects {name : String}
    (agree : ∀ w v, R w v → v.files.read v.here (v.session.resolve name) =
      w.files.read w.here (w.session.resolve name)) : Respects R (Builtin.showFile name) :=
  fun w v related => reporting.showFile_sameOutcome related (agree w v related)
    fun _ bytes _ => reporting.printBytes bytes related

theorem showFiles_respects {names : List String}
    (agree : ∀ name ∈ names, ∀ w v, R w v → v.files.read v.here (v.session.resolve name) =
      w.files.read w.here (w.session.resolve name)) : Respects R (Builtin.showFiles names) := by
  induction names with
  | nil => exact InStep.pure true
  | cons name names ih =>
    unfold Builtin.showFiles
    apply bind (reporting.showFile_respects (agree name (.head _)))
    intro complete
    apply bind (ih fun name' listed => agree name' (.tail _ listed))
    intro others
    exact InStep.pure _

theorem runCat_respects {names : List String}
    (agree : ∀ name ∈ names, ∀ w v, R w v → v.files.read v.here (v.session.resolve name) =
      w.files.read w.here (w.session.resolve name)) : Respects R (Builtin.runCat names) := by
  unfold Builtin.runCat
  apply bind (reporting.showFiles_respects agree)
  intro complete
  apply bind reporting.flush
  intro _
  exact InStep.pure _

end Reporting

namespace Answering

variable {R : World → World → Prop} (same : Answering R)
include same

theorem remember_respects (f : Session → Session) : Respects R (Act.remember f) :=
  modify_of fun _ _ => same.remember f

theorem stop_respects (n : Int) : Respects R (Builtin.runExit.stop n) := by
  unfold Builtin.runExit.stop
  exact bind (same.remember_respects _) fun _ => InStep.pure _

theorem runExit_respects (arguments : List String) : Respects R (Builtin.runExit arguments) := by
  unfold Builtin.runExit
  match arguments with
  | [] => exact same.stop_respects 0
  | [argument] =>
    dsimp only
    cases Text.integer? argument with
    | some n => exact same.stop_respects n
    | none => exact bind (same.report _) fun _ => same.stop_respects 2
  | _ :: _ :: _ => exact bind (same.report _) fun _ => InStep.pure 1

theorem changeDirectory_respects (target : String) : Respects R (Builtin.runCd.go target) := by
  unfold Builtin.runCd.go
  apply get_bind
  intro w v related
  -- both ask about the same path and, if that is a directory, both change to it
  rw [same.session related]
  cases Builtin.expandHome w.session target with
  | none => exact bind (same.report _) fun _ => InStep.pure 1
  | some path =>
    dsimp only
    rw [same.directoryError? _ related]
    cases Builtin.directoryError? w (w.session.resolve path) with
    | some e => exact bind (same.report _) fun _ => InStep.pure 1
    | none =>
      apply bind (same.note_respects .builtin _)
      intro _
      exact bind (same.remember_respects _) fun _ => InStep.pure 0

theorem runCd_respects (arguments : List String) : Respects R (Builtin.runCd arguments) := by
  unfold Builtin.runCd
  match arguments with
  | [] => exact same.changeDirectory_respects "~"
  | [target] => exact same.changeDirectory_respects target
  | _ :: _ :: _ => exact bind (same.report _) fun _ => InStep.pure 1

theorem findProgram_respects (name : String) : Respects R (findProgram name) := by
  unfold findProgram
  apply get_bind
  intro w v related
  rw [same.candidates name related]
  exact bind (same.note_respects .search _) fun _ => InStep.pure _

theorem programsOf_respects (everything : Bool) (name : String) :
    Respects R (Builtin.programsOf everything name) := by
  unfold Builtin.programsOf
  cases everything with
  | true =>
    apply get_bind
    intro w v related
    rw [same.candidates name related]
    exact InStep.pure _
  | false => exact bind (same.findProgram_respects name) fun _ => InStep.pure _

theorem meanings_respects (everything : Bool) (name : String) :
    Respects R (Builtin.meanings everything name) := by
  unfold Builtin.meanings
  -- whether the name is one of a builtin does not depend on the world
  generalize (if (Builtin.ofName? name).isSome then [s!"{name} is a shell builtin"] else []) = lines
  dsimp only
  split
  · exact bind (same.programsOf_respects everything name) fun _ => InStep.pure _
  · exact InStep.pure _

theorem describeName_respects (everything : Bool) (name : String) :
    Respects R (Builtin.describeName everything name) := by
  unfold Builtin.describeName
  apply bind (same.meanings_respects everything name)
  intro lines
  apply bind (same.printLines_respects lines)
  intro _
  cases lines.isEmpty with
  | true => exact bind (same.report _) fun _ => InStep.pure false
  | false => exact InStep.pure true

theorem describeNames_respects (everything : Bool) (names : List String) :
    Respects R (Builtin.describeNames everything names) := by
  induction names with
  | nil => exact InStep.pure true
  | cons name names ih =>
    unfold Builtin.describeNames
    apply bind (same.describeName_respects everything name)
    intro found
    exact bind ih fun others => InStep.pure _

theorem runType_respects (arguments : List String) : Respects R (Builtin.runType arguments) := by
  unfold Builtin.runType
  dsimp only
  split
  · exact bind (same.report _) fun _ => InStep.pure 2
  · apply bind (same.describeNames_respects _ _)
    intro found
    exact bind same.flush fun _ => InStep.pure _

/-- A builtin that passes no bytes on runs in step with itself. -/
theorem run_respects {b : Builtin} (other : b ≠ .cat) (arguments : List String) :
    Respects R (b.run arguments) := by
  cases b with
  | exit => exact same.runExit_respects arguments
  | echo => exact same.runEcho_respects arguments
  | pwd => exact same.runPwd_respects
  | cd => exact same.runCd_respects arguments
  | type => exact same.runType_respects arguments
  | cat => exact absurd rfl other

end Answering

/-- A builtin runs in step with itself if the files that `cat` is asked for hold the same. -/
theorem Correspondence.run_respects {R : World → World → Prop} (same : Correspondence R)
    (b : Builtin) {arguments : List String}
    (agree : b = .cat → ∀ name ∈ arguments, ∀ w v, R w v →
      v.files.read v.here (v.session.resolve name) =
        w.files.read w.here (w.session.resolve name)) :
    Respects R (b.run arguments) := by
  by_cases reads : b = .cat
  · rw [reads]
    exact same.runCat_respects (agree reads)
  · exact same.toAnswering.run_respects reads arguments

end LineShell
