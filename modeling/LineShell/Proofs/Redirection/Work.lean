import LineShell.Proofs.Redirection.Children

/-!
# What a command does with its streams in files

`World.touched` lists the files that a command reads, launches or lets a child write to. A
command that touches none of the files that stand in for its streams does the same in both runs
of a `Diversion`, whichever of its courses it takes.

Main statement: `Diversion.dispatch_sameOutcome`.
-/

namespace LineShell

open Act

variable {w v : World} {name : String} {arguments : List String}

namespace World

/-- The files that `cat` reads. -/
def readBy (w : World) (arguments : List String) : List NodeId :=
  arguments.flatMap fun argument =>
    (w.files.find w.here (w.session.resolve argument)).toOption.toList

/-- The files whose content counts for a command: those that `cat` reads, or those that are
touched where a program is started. -/
def touched (w : World) (name : String) (arguments : List String) : List NodeId :=
  match Builtin.ofName? name with
  | some .cat => w.readBy arguments
  | some _ => []
  | none =>
    match (w.candidates name).head? with
    | none => []
    | some path =>
      (w.beforeStart name path arguments).touchedByStart (Path.join w.session.cwd path) arguments

theorem readBy_eq (shares : v.SharesState w) (arguments : List String) :
    v.readBy arguments = w.readBy arguments := by
  unfold readBy
  rw [shares.files, shares.here, shares.session]

end World

namespace Diversion

open World

variable {origin : World} {targets : Both (Option Target)}
  {R : (NodeId → Option Bytes) → World → World → Prop} (diversion : Diversion origin targets R)
include diversion

/-! ## Builtins -/

/-- While a command only says something, the first run keeps its session and its files. -/
theorem reporting_sharesState (start : World) :
    Reporting fun w v => Related R w v ∧ w.SharesState start where
  session related := diversion.reporting.session related.1
  debug source message related := ⟨diversion.reporting.debug source message related.1,
    (note_sharesState _ _ _ _).trans related.2⟩
  print := by
    rintro text w v ⟨⟨held, related⟩, shares⟩
    have beside := diversion.beside related
    exact (diversion.reporting.print text ⟨held, related⟩).and_of_ok
      (print_apply (beside.idle.get .out) text) ((onTerminal_sharesState _ _ _).trans shares)
  flush := by
    rintro w v ⟨⟨held, related⟩, shares⟩
    have beside := diversion.beside related
    exact (diversion.reporting.flush ⟨held, related⟩).and_of_ok
      (flush_apply (beside.idle.get .out)) ((onTerminal_sharesState _ _ _).trans shares)
  printBytes := by
    rintro bytes w v ⟨⟨held, related⟩, shares⟩
    have beside := diversion.beside related
    exact (diversion.reporting.printBytes bytes ⟨held, related⟩).and_of_ok
      (printBytes_apply (beside.idle.get .out) beside.raw bytes)
      ((onTerminal_sharesState _ _ _).trans shares)
  report := by
    rintro message w v ⟨⟨held, related⟩, shares⟩
    have beside := diversion.beside related
    exact (diversion.reporting.report message ⟨held, related⟩).and_of_ok
      (report_apply (beside.idle.get .err) message) ((onTerminal_sharesState _ _ _).trans shares)

/-- `cat` reads the same in both runs. -/
theorem runCat_sameOutcome (related : Related R w v)
    (spared : Spares targets (w.readBy arguments)) :
    SameOutcome (Related R) (Builtin.runCat arguments w) (Builtin.runCat arguments v) := by
  have agree : ∀ argument ∈ arguments, ∀ w' v', Related R w' v' ∧ w'.SharesState w →
      v'.files.read v'.here (v'.session.resolve argument) =
        w'.files.read w'.here (w'.session.resolve argument) := by
    rintro argument listed w' v' ⟨⟨held, related⟩, shares⟩
    have beside := diversion.beside related
    rw [beside.here, beside.session]
    apply beside.files.read_eq
    intro id found
    apply beside.held_eq_none spared
    rw [shares.files, shares.here, shares.session] at found
    exact List.mem_flatMap.2 ⟨argument, listed, by simp [found, Except.toOption]⟩
  -- what `cat` has said before does not change what the later arguments lead to
  have both := (diversion.reporting_sharesState w).runCat_respects agree
    ⟨related, ⟨rfl, rfl, rfl, rfl⟩⟩
  exact both.mono fun _ _ kept => kept.1

theorem runBuiltin_sameOutcome {b : Builtin} (related : Related R w v)
    (spared : b = .cat → Spares targets (w.readBy arguments)) :
    SameOutcome (Related R) (b.run arguments w) (b.run arguments v) := by
  by_cases reads : b = .cat
  · subst reads
    exact diversion.runCat_sameOutcome related (spared rfl)
  · exact diversion.correspondence.run_respects b (fun isCat => absurd isCat reads) related

/-! ## Commands -/

/-- A command that spares the files does the same in both runs. -/
theorem dispatch_sameOutcome (related : Related R w v) (fresh : v.JustOpened)
    (spared : Spares targets (w.touched name arguments)) :
    SameOutcome (Related R) (dispatch .usual name arguments w)
      (dispatch .usual name arguments v) := by
  unfold dispatch
  cases isBuiltin : Builtin.ofName? name with
  | some b =>
    have noted := diversion.reporting.debug .execution
      s!"builtin {b.name} {Text.quoteList arguments}" related
    apply diversion.runBuiltin_sameOutcome noted
    rintro rfl
    rw [readBy_eq (note_sharesState w _ _ _)]
    simpa [touched, isBuiltin] using spared
  | none =>
    have same : v.candidates name = w.candidates name :=
      diversion.correspondence.candidates name related
    have searched := diversion.afterSearch related name
    simp only [bind_apply, findProgram_apply, same]
    cases found : (w.candidates name).head? with
    | none =>
      exact InStep.bind (diversion.reporting.report s!"{name}: command not found")
        (fun _ => InStep.pure notFoundStatus) searched
    | some path =>
      have started := diversion.launch_sameOutcome related fresh
        (by simpa [touched, isBuiltin, found] using spared)
      exact started.bind fun outcome _ _ ended =>
        diversion.reporting.launchStatus_respects name outcome ended

end Diversion

end LineShell
