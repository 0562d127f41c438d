import LineShell.Proofs.Execution.Concatenation
import LineShell.Proofs.Execution.Course
import LineShell.Proofs.Execution.TypeNames
import LineShell.Proofs.Session.Going
import LineShell.Proofs.TwoRuns.Sharing

/-!
# Where the work of a command stops

The work of a command comes to a status, unless it comes to something that it cannot go on with
(`World.Balks`): `cat` is given the name of a file that holds the character that ends a text, or of a
file that has no end, or a program that was found is to be given a text with that character. Then it
stops half-way, with a fault. No other builtin stops (`run_succeeds`), and neither does a program
that is not found or not started: this is said on the stream for the errors.

Main statement: `dispatch_error_iff`.
-/

namespace LineShell

open Act

namespace World

variable {w v : World}

/-! ## Reading from where the work begins -/

/-- The worlds differ in their logs and terminals only, and take bytes alike. -/
def Matches (w v : World) : Prop :=
  v.SharesState w ∧ v.console.textOnly = w.console.textOnly

theorem Matches.onTerminal (related : w.Matches v) (c : Channel) (f g : Terminal → Terminal) :
    (w.onTerminal c f).Matches (v.onTerminal c g) :=
  ⟨⟨related.1.session, related.1.files, related.1.here, related.1.redirects⟩, related.2⟩

theorem matches_note (w : World) (level : Log.Level) (source : Log.Source) (message : String) :
    w.Matches (w.note level source message) :=
  ⟨w.note_sharesState level source message, by simp⟩

theorem Matches.speaking : Speaking Matches where
  shares related := related.1
  textOnly related := related.2
  change files redirects related :=
    ⟨⟨related.1.session, rfl, related.1.here, rfl⟩, related.2⟩
  note level source message related := by
    refine ⟨⟨?_, ?_, ?_, ?_⟩, ?_⟩
    · simpa using related.1.session
    · simpa using related.1.files
    · simpa using related.1.here
    · simpa using related.1.redirects
    · simpa using related.2
  remember f related :=
    ⟨⟨congrArg f related.1.session, related.1.files, related.1.here, related.1.redirects⟩,
      related.2⟩
  print _ related := related.onTerminal _ _ _
  flush related := related.onTerminal _ _ _
  pass _ related := related.onTerminal _ _ _

theorem Matches.readInTurn_eq (related : w.Matches v) (names : List String) :
    v.readInTurn names = w.readInTurn names := by
  have reporting := (Matches.speaking.correspondence
    (Matches.speaking.report_respects fun _ related _ => related.onTerminal _ _ _)).toReporting
  have asks : ∀ name (w v : World), w.Matches v →
      v.files.read v.here (v.session.resolve name) =
        w.files.read w.here (w.session.resolve name) := by
    intro name w v related
    rw [related.1.files, related.1.here, related.1.session]
  induction names generalizing w v with
  | nil => rfl
  | cons name names ih =>
    have shown : Respects Matches (Builtin.showFile name) :=
      reporting.showFile_respects (asks name)
    have reads : v.readOf name = w.readOf name := by
      rw [readOf, readOf, asks name w v related, related.1.session]
    rw [readInTurn, readInTurn, reads, ih (shown.run related)]

end World

/-! ## Coming to a value or not -/

namespace Act

variable {α β : Type} {act : Act α} {w v : World} {fault : Fault}

theorem not_error_of_ok {a : α} (ran : act w = .ok a v) : ¬ ∃ u, act w = .error fault u := by
  rintro ⟨u, failed⟩
  cases ran.symm.trans failed

/-- The action comes to a value, and the streams take what is written then. -/
def Succeeds (act : Act α) (w : World) : Prop :=
  ∃ a v, act w = .ok a v ∧ v.Accepts

theorem Utters.succeeds {a : α} {said : Both Bytes} (utters : Utters act w a said)
    (accepts : w.Accepts) : Succeeds act w := by
  obtain ⟨v, ran, speaks⟩ := utters
  exact ⟨a, v, ran, speaks.accepts accepts⟩

theorem Succeeds.not_error (succeeds : Succeeds act w) : ¬ ∃ u, act w = .error fault u := by
  obtain ⟨a, v, ran, _⟩ := succeeds
  exact not_error_of_ok ran

theorem Succeeds.bind {next : α → Act β} (first : Succeeds act w)
    (rest : ∀ a v, v.Accepts → Succeeds (next a) v) : Succeeds (act >>= next) w := by
  obtain ⟨a, v, ran, accepts⟩ := first
  obtain ⟨b, u, ran', accepts'⟩ := rest a v accepts
  exact ⟨b, u, by rw [bind_apply, ran]; exact ran', accepts'⟩

/-- The action stops with a fault, and what it says until then is `said`. -/
def Breaks (act : Act α) (w : World) (fault : Fault) (said : Both Bytes) : Prop :=
  ∃ v, act w = .error fault v ∧ w.Speaks said v

theorem Succeeds.get_bind {next : World → Act β} (rest : Succeeds (next w) w) :
    Succeeds (get >>= next) w :=
  rest

end Act

namespace Builtin

variable {w : World} {name : String} {names before : List String} {fault : Fault}
  (accepts : w.Accepts)
include accepts

theorem runExit_succeeds (arguments : List String) : Succeeds (runExit arguments) w := by
  have stops : ∀ (n : Int) (v : World), v.Accepts → Succeeds (runExit.stop n) v :=
    fun _ _ accepts => ⟨_, _, rfl, accepts⟩
  unfold runExit
  match arguments with
  | [] => exact stops 0 w accepts
  | [argument] =>
    dsimp only
    cases Text.integer? argument with
    | some n => exact stops n w accepts
    | none => exact ((report_utters accepts _).succeeds accepts).bind fun _ v => stops 2 v
  | _ :: _ :: _ =>
    exact ((report_utters accepts _).succeeds accepts).bind fun _ v accepts => ⟨_, v, rfl, accepts⟩

/-- A line on the standard output. -/
theorem printLine_flush_succeeds (text : String) :
    Succeeds (do printLine .out text; flush .out; return (0 : Int)) w := by
  refine ((printLine_utters accepts .out text).succeeds accepts).bind fun _ v accepts => ?_
  refine ((flush_utters accepts .out).succeeds accepts).bind fun _ u accepts => ?_
  exact ⟨_, u, rfl, accepts⟩

theorem runCd_succeeds (arguments : List String) : Succeeds (run .cd arguments) w := by
  rcases runCd_cases w arguments with ⟨directory, _, _, ran⟩ | ⟨_, reason, ran⟩
  · have gone : (w.goneTo directory).Accepts := by
      have noted := (World.Speaks.note w .debug .builtin
        s!"cd {w.session.cwd} -> {directory}").accepts accepts
      exact noted
    exact ⟨0, _, ran, gone⟩
  · obtain ⟨status, v, failed, accepts'⟩ : Succeeds (runCd.fail reason) w :=
      ((report_utters accepts _).succeeds accepts).bind fun _ v accepts => ⟨_, v, rfl, accepts⟩
    exact ⟨status, v, ran.trans failed, accepts'⟩

theorem runType_succeeds (arguments : List String) : Succeeds (runType arguments) w := by
  by_cases flags : arguments.dropWhile (· = allFlag) = []
  · have all : ∀ a ∈ arguments, a = allFlag := by simpa using flags
    exact (runType_usage accepts all).succeeds accepts
  · exact (runType_utters accepts rfl flags).succeeds accepts

/-- No builtin but `cat` stops half-way. -/
theorem run_succeeds {b : Builtin} (isOther : b ≠ .cat) (arguments : List String) :
    Succeeds (b.run arguments) w := by
  cases b with
  | exit => exact runExit_succeeds accepts arguments
  | echo => exact printLine_flush_succeeds accepts (" ".intercalate arguments)
  | pwd => exact Succeeds.get_bind (printLine_flush_succeeds accepts w.session.cwd)
  | cd => exact runCd_succeeds accepts arguments
  | type => exact runType_succeeds accepts arguments
  | cat => exact absurd rfl isOther

/-! ## Names at which `cat` cannot go on -/

omit accepts in
theorem showFile_defied (defies : w.Defies name fault) : showFile name w = .error fault w := by
  cases defies with
  | null holds => simp [showFile, holds]
  | endless clean leads => simp [showFile, clean, FileSystem.read_eq_none_iff.2 leads]

/-- At a name of this kind nothing is said any more. -/
theorem showFiles_breaks (yields : ∀ name ∈ before, w.Yields name) (defies : w.Defies name fault)
    (after : List String) : Breaks (showFiles (before ++ name :: after)) w fault
      ⟨w.shownContents (w.readInTurn before), w.complaints before (w.readInTurn before)⟩ := by
  induction before generalizing w with
  | nil =>
    refine ⟨w, ?_, .refl w⟩
    rw [List.nil_append, showFiles, bind_apply, showFile_defied defies]
  | cons first before ih =>
    obtain ⟨outcome, v, _, ran, speaks, accepts', yields', inTurn⟩ :=
      showFile_first accepts yields
    obtain ⟨u, stopped, others⟩ := ih accepts' yields' (speaks.defies_iff.2 defies)
    rw [inTurn]
    refine ⟨u, ?_, speaks.cons_outcome others⟩
    rw [List.cons_append, showFiles, bind_apply, ran]
    simp [stopped]

theorem runCat_breaks (yields : ∀ name ∈ before, w.Yields name) (defies : w.Defies name fault)
    (after : List String) : Breaks (runCat (before ++ name :: after)) w fault
      ⟨w.shownContents (w.readInTurn before), w.complaints before (w.readInTurn before)⟩ := by
  obtain ⟨v, stopped, speaks⟩ := showFiles_breaks accepts yields defies after
  exact ⟨v, by rw [runCat, bind_apply, stopped], speaks⟩

/-- `cat` stops half-way at the first name at which it cannot go on, and nowhere else. -/
theorem runCat_error_iff : (∃ v, runCat names w = .error fault v) ↔
    ∃ before name after, names = before ++ name :: after ∧
      (∀ other ∈ before, w.Yields other) ∧ w.Defies name fault := by
  constructor
  · rintro ⟨v, failed⟩
    rcases w.yields_or_defies names with yields | ⟨before, name, after, fault', rfl, yields, defies⟩
    · exact absurd ⟨v, failed⟩ ((runCat_utters accepts yields).succeeds accepts).not_error
    · obtain ⟨u, failed', _⟩ := runCat_breaks accepts yields defies after
      obtain ⟨rfl, _⟩ := EStateM.Result.error.inj (failed.symm.trans failed')
      exact ⟨before, name, after, rfl, yields, defies⟩
  · rintro ⟨before, name, after, rfl, yields, defies⟩
    obtain ⟨v, failed, _⟩ := runCat_breaks accepts yields defies after
    exact ⟨v, failed⟩

end Builtin

/-! ## The work of a command -/

namespace World

/-- The work of a command comes to something that it cannot go on with. -/
inductive Balks (w : World) (name : String) (arguments : List String) : Fault → Prop
  /-- At one of its files `cat` cannot go on, and at none of those before. -/
  | file {before after : List String} {argument : String} {fault : Fault} (isCat : name = "cat")
      (given : arguments = before ++ argument :: after)
      (yields : ∀ other ∈ before, w.Yields other) (defies : w.Defies argument fault) :
      Balks w name arguments fault
  /-- A program is found that cannot be given its texts. -/
  | handover {path : String} {fault : Fault} (free : Builtin.ofName? name = none)
      (found : (w.candidates name).head? = some path)
      (fails : handoverFault? (Path.join w.session.cwd path) (name :: arguments) w.session =
        some fault) : Balks w name arguments fault

variable {w : World} {name : String} {arguments : List String} {fault : Fault}

theorem balks_iff_of_builtin {b : Builtin} (isBuiltin : Builtin.ofName? name = some b) :
    w.Balks name arguments fault ↔ b = .cat ∧ ∃ before argument after,
      arguments = before ++ argument :: after ∧ (∀ other ∈ before, w.Yields other) ∧
        w.Defies argument fault := by
  constructor
  · intro balks
    cases balks with
    | file isCat given yields defies =>
      have cat : Builtin.ofName? "cat" = some .cat := by decide
      exact ⟨Option.some.inj (isBuiltin.symm.trans (isCat ▸ cat)), _, _, _, given, yields, defies⟩
    | handover free => cases isBuiltin.symm.trans free
  · rintro ⟨rfl, before, argument, after, given, yields, defies⟩
    exact .file (Builtin.ofName?_eq_some_iff.1 isBuiltin).symm given yields defies

theorem balks_iff_of_free (free : Builtin.ofName? name = none) :
    w.Balks name arguments fault ↔ ∃ path, (w.candidates name).head? = some path ∧
      handoverFault? (Path.join w.session.cwd path) (name :: arguments) w.session = some fault := by
  constructor
  · intro balks
    cases balks with
    | file isCat => exact absurd (isCat ▸ free) (by decide)
    | handover _ found fails => exact ⟨_, found, fails⟩
  · rintro ⟨path, found, fails⟩
    exact .handover free found fails

end World

namespace Act

variable {w v : World} {name path : String} {arguments : List String} {fault : Fault} {e : Errno}

/-- What is said before a launch is only in the log. -/
theorem beforeStart_speaks (w : World) (name path : String) (arguments : List String) :
    w.Speaks .nothing (w.beforeStart name path arguments) :=
  ((World.Speaks.note w _ _ _).trans (.flushTerminals _)).trans (.note _ _ _ _)

theorem dispatch_missing_utters (accepts : w.Accepts) (free : Builtin.ofName? name = none)
    (missing : (w.candidates name).head? = none) (arguments : List String) :
    Utters (dispatch .usual name arguments) w notFoundStatus
      (.only .err (w.reportLine s!"{name}: command not found")) := by
  have searched : w.Speaks .nothing (w.afterSearch name) := .note w _ _ _
  obtain ⟨v, ran, speaks⟩ := report_utters (searched.accepts accepts) s!"{name}: command not found"
  refine ⟨v, ?_, searched.reportLine_eq _ ▸ searched.trans speaks⟩
  rw [dispatch_missing .usual arguments free missing, bind_apply, ran]
  rfl

/-- A program that the operating system does not start. -/
theorem dispatch_refused_utters (accepts : w.Accepts) (free : Builtin.ofName? name = none)
    (found : (w.candidates name).head? = some path)
    (accepted : handoverFault? (Path.join w.session.cwd path) (name :: arguments) w.session = none)
    (refused : prepareChild w (Path.join w.session.cwd path) arguments = .error e) :
    Utters (dispatch .usual name arguments) w notLaunchedStatus
      (.only .err (w.reportLine s!"minishell: {name}: {e.text}")) := by
  have begins := beforeStart_speaks w name path arguments
  have shares := w.beforeStart_sharesState name arguments path
  obtain ⟨v, ran, speaks⟩ :=
    report_utters (begins.accepts accepts) s!"minishell: {name}: {e.text}"
  refine ⟨v, ?_, begins.reportLine_eq _ ▸ begins.trans speaks⟩
  rw [dispatch_found free found, shares.session, shares.prepareChild_eq, accepted, refused]
  simp only [launchStatus, bind_apply, ran]
  rfl

/-- Of texts that cannot be given to a program nothing is said. -/
theorem dispatch_handover_breaks (free : Builtin.ofName? name = none)
    (found : (w.candidates name).head? = some path)
    (fails : handoverFault? (Path.join w.session.cwd path) (name :: arguments) w.session =
      some fault) : Breaks (dispatch .usual name arguments) w fault .nothing := by
  have shares := w.beforeStart_sharesState name arguments path
  refine ⟨_, ?_, beforeStart_speaks w name path arguments⟩
  rw [dispatch_found free found, shares.session, fails]

/-- Whatever a file comes to, `cat` goes on. -/
theorem dispatch_cat_utters (accepts : w.Accepts)
    (yields : ∀ argument ∈ arguments, w.Yields argument) :
    let outcomes := w.readInTurn arguments
    Utters (dispatch .usual "cat" arguments) w (Builtin.catStatus outcomes)
      ⟨w.shownContents outcomes, w.complaints arguments outcomes⟩ := by
  let before := w.note .debug .execution s!"builtin {Builtin.cat.name} {Text.quoteList arguments}"
  have noted : w.Speaks .nothing before := .note w _ _ _
  have related : w.Matches before := w.matches_note _ _ _
  obtain ⟨v, ran, speaks⟩ :=
    Builtin.runCat_utters (noted.accepts accepts)
      fun argument listed => noted.yields_iff.2 (yields argument listed)
  rw [related.readInTurn_eq] at ran speaks
  rw [noted.shownContents_eq, noted.complaints_eq] at speaks
  refine ⟨v, ?_, noted.trans speaks⟩
  rw [dispatch_builtin .usual arguments (by decide : Builtin.ofName? "cat" = some .cat)]
  exact ran

/-- At a file of which reading comes to nothing `cat` stops. -/
theorem dispatch_cat_breaks (accepts : w.Accepts) {before : List String} {argument : String}
    (yields : ∀ other ∈ before, w.Yields other) (defies : w.Defies argument fault)
    (after : List String) :
    let outcomes := w.readInTurn before
    Breaks (dispatch .usual "cat" (before ++ argument :: after)) w fault
      ⟨w.shownContents outcomes, w.complaints before outcomes⟩ := by
  let start := w.note .debug .execution
    s!"builtin {Builtin.cat.name} {Text.quoteList (before ++ argument :: after)}"
  have noted : w.Speaks .nothing start := .note w _ _ _
  have related : w.Matches start := w.matches_note _ _ _
  obtain ⟨v, stopped, speaks⟩ := Builtin.runCat_breaks (noted.accepts accepts)
    (fun other listed => noted.yields_iff.2 (yields other listed)) (noted.defies_iff.2 defies) after
  rw [related.readInTurn_eq, noted.shownContents_eq, noted.complaints_eq] at speaks
  refine ⟨v, ?_, noted.trans speaks⟩
  rw [dispatch_builtin .usual _ (by decide : Builtin.ofName? "cat" = some .cat)]
  exact stopped

theorem dispatch_error_iff_of_builtin (accepts : w.Accepts) {b : Builtin}
    (isBuiltin : Builtin.ofName? name = some b) :
    (∃ v, dispatch .usual name arguments w = .error fault v) ↔ w.Balks name arguments fault := by
  have noted := World.Speaks.note w .debug .execution
    s!"builtin {b.name} {Text.quoteList arguments}"
  rw [dispatch_builtin .usual arguments isBuiltin, World.balks_iff_of_builtin isBuiltin]
  by_cases isCat : b = .cat
  · subst isCat
    refine (Builtin.runCat_error_iff (noted.accepts accepts)).trans ?_
    simp only [noted.yields_iff, noted.defies_iff, true_and]
  · have succeeds := Builtin.run_succeeds (noted.accepts accepts) isCat arguments
    exact iff_of_false succeeds.not_error fun balks => isCat balks.1

theorem dispatch_error_iff_of_free (accepts : w.Accepts) (free : Builtin.ofName? name = none) :
    (∃ v, dispatch .usual name arguments w = .error fault v) ↔ w.Balks name arguments fault := by
  rw [World.balks_iff_of_free free]
  cases found : (w.candidates name).head? with
  | none =>
    have utters := dispatch_missing_utters accepts free found arguments
    exact iff_of_false (utters.succeeds accepts).not_error (by simp)
  | some path =>
    simp only [Option.some.injEq, exists_eq_left']
    cases accepted : handoverFault? (Path.join w.session.cwd path) (name :: arguments)
        w.session with
    | some fault' =>
      obtain ⟨v, failed, _⟩ := dispatch_handover_breaks free found accepted
      simp [failed]
    | none =>
      refine iff_of_false ?_ (by simp)
      cases prepared : prepareChild w (Path.join w.session.cwd path) arguments with
      | error e =>
        have utters := dispatch_refused_utters accepts free found accepted prepared
        exact (utters.succeeds accepts).not_error
      | ok child =>
        have works := dispatch_found free found arguments
        have shares := w.beforeStart_sharesState name arguments path
        dsimp only at works
        rw [shares.session, shares.prepareChild_eq, accepted, prepared] at works
        exact not_error_of_ok works

/-- The work of a command stops half-way where it comes to something that it cannot go on with, and
only there. -/
theorem dispatch_error_iff (accepts : w.Accepts) :
    (∃ v, dispatch .usual name arguments w = .error fault v) ↔ w.Balks name arguments fault := by
  cases isBuiltin : Builtin.ofName? name with
  | some b => exact dispatch_error_iff_of_builtin accepts isBuiltin
  | none => exact dispatch_error_iff_of_free accepts isBuiltin

end Act

end LineShell
