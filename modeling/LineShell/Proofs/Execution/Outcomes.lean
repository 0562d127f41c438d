import LineShell.Proofs.Execution.Frame
import LineShell.Proofs.Execution.HalfWay
import LineShell.Proofs.Redirection.Faults
import LineShell.Proofs.Redirection.Refused

/-!
# What a command comes to

A command comes to a status, or it stumbles (`World.Stumbles`): the file of a redirection is neither
opened nor refused, or its work stops half-way. Then it is left to the caller to say so. Where all
the texts that it may need can be handed over, the directories on the way to its files can be made
and the files that `cat` is given have an end, it does not stumble (`World.Suits`).

Whatever else fails, a file, a redirection or a launch, is said on the stream for the errors and the
command comes to a status (`World.Ends`), and `cat` goes on.

Main statement: `execute_ends`.
-/

namespace LineShell

open Act

/-! ## Texts -/

/-- The texts that a command brings along. -/
def Command.texts (c : Command) : List String :=
  c.name.toList ++ c.arguments ++ (c.stdout.toList ++ c.stderr.toList).map (·.path)

theorem Session.holdsNull_of_resolve {s : Session} {path : String}
    (holds : holdsNull (s.resolve path)) : holdsNull s.cwd ∨ holdsNull path :=
  Path.holdsNull_of_join (Path.holdsNull_of_normalize holds)

namespace World

variable {w opened : World} {c : Command} {name path : String} {arguments : List String}
  {fault : Fault}

/-- The command comes to something that it cannot go on with. -/
inductive Stumbles (w : World) (c : Command) : Fault → Prop
  /-- A file that a redirection names is neither opened nor refused. -/
  | target {fault : Fault} {opened : World} (fails : openRedirects c w = .error fault opened) :
      Stumbles w c fault
  /-- Its files are open, and its work stops half-way. -/
  | work {name : String} {fault : Fault} {opened : World} (named : c.name = some name)
      (opens : openRedirects c w = .ok none opened) (balks : opened.Balks name c.arguments fault) :
      Stumbles w c fault

theorem stumbles_iff_of_fails {fault' : Fault} (fails : openRedirects c w = .error fault' opened) :
    w.Stumbles c fault ↔ fault' = fault := by
  constructor
  · intro stumbles
    cases stumbles with
    | target fails' =>
      cases fails.symm.trans fails'
      rfl
    | work _ opens => cases fails.symm.trans opens
  · rintro rfl
    exact .target fails

theorem not_stumbles_of_refused {refusal : Refusal}
    (refused : openRedirects c w = .ok (some refusal) opened) : ¬ w.Stumbles c fault := by
  intro stumbles
  cases stumbles with
  | target fails => cases refused.symm.trans fails
  | work _ opens => cases refused.symm.trans opens

theorem stumbles_iff_of_opens (named : c.name = some name)
    (opens : openRedirects c w = .ok none opened) :
    w.Stumbles c fault ↔ opened.Balks name c.arguments fault := by
  constructor
  · intro stumbles
    cases stumbles with
    | target fails => cases opens.symm.trans fails
    | work named' opens' balks =>
      cases named.symm.trans named'
      cases opens.symm.trans opens'
      exact balks
  · exact .work named opens

/-- The world is fit for the command: all texts that it may need can be handed over, no more
directories are missing on the way to its files than are made at once, and what `cat` is given to
read has an end. -/
structure Suits (w : World) (c : Command) : Prop where
  texts : ∀ text ∈ c.texts, ¬ holdsNull text
  cwd : ¬ holdsNull w.session.cwd
  env : w.session.env.IsValid
  ways : ∀ channel r, c.redirect channel = some r → ¬ w.LacksWay r
  ends : c.name = some "cat" → ∀ opened, openRedirects c w = .ok none opened →
    ∀ argument ∈ c.arguments, ¬ opened.IsEndless argument

/-- The command, whose files are open in the world `opened`, comes to a status, and `said` is what
it says on the streams that it has there. -/
def Ends (w : World) (c : Command) (opened : World) (status : Int) (said : Both Bytes) : Prop :=
  ∃ v, opened.Speaks said v ∧ execute c w =
    .ok status { v.closeRedirects with session := { v.closeRedirects.session with status } }

/-- The command stops with a fault, and `said` is all that it says. -/
def Stops (w : World) (c : Command) (opened : World) (fault : Fault) (said : Both Bytes) : Prop :=
  ∃ v, opened.Speaks said v ∧ execute c w = .error fault v.closeRedirects

/-- The path of a program holds nothing that neither its name nor a variable holds. -/
theorem holdsNull_of_mem_candidates (listed : path ∈ w.candidates name) (holds : holdsNull path)
    (valid : w.session.env.IsValid) : holdsNull name := by
  obtain ⟨_, found⟩ := mem_candidates.1 listed
  split at found
  · exact found.1 ▸ holds
  · obtain ⟨dir, searched, _, rfl⟩ := found
    refine (Path.holdsNull_of_join holds).resolve_left fun null => ?_
    have inPath : holdsNull ((w.session.env.lookup "PATH").getD "") := by
      rw [holdsNull_eq_any_pieces (by decide : ':' ≠ '\x00')]
      exact List.any_eq_true.2 ⟨dir, (List.mem_filter.1 searched).1, null⟩
    cases value : w.session.env.lookup "PATH" with
    | none => simp [value, holdsNull] at inPath
    | some text =>
      obtain ⟨before, after, entries, _⟩ := List.lookup_eq_some_iff.1 value
      rw [value] at inPath
      exact (valid ("PATH", text) (by simp [entries])).2.2 inPath

theorem not_balks (clean : ∀ text ∈ name :: arguments, ¬ holdsNull text)
    (cwd : ¬ holdsNull w.session.cwd) (valid : w.session.env.IsValid)
    (ends : name = "cat" → ∀ argument ∈ arguments, ¬ w.IsEndless argument) :
    ¬ w.Balks name arguments fault := by
  intro balks
  cases balks with
  | @file _ _ argument _ isCat given _ defies =>
    have listed : argument ∈ arguments := by simp [given]
    cases defies with
    | null holds =>
      exact (Session.holdsNull_of_resolve holds).elim cwd (clean argument (.tail _ listed))
    | endless _ leads => exact ends isCat argument listed leads
  | @handover path _ _ found fails =>
    have plain : ¬ holdsNull (Path.join w.session.cwd path) := by
      intro holds
      refine (Path.holdsNull_of_join holds).elim cwd fun holds => clean name (.head _) ?_
      exact holdsNull_of_mem_candidates (List.mem_of_head? found) holds valid
    rw [handoverFault?_eq_none plain clean cwd valid] at fails
    cases fails

/-- A command that the world is fit for does not stumble. -/
theorem Suits.not_stumbles (suits : w.Suits c) (fault : Fault) : ¬ w.Stumbles c fault := by
  intro stumbles
  cases stumbles with
  | target fails =>
    obtain ⟨r, redirects, ⟨rfl, null⟩ | ⟨rfl, lacks⟩⟩ := openRedirects_fault fails
    · refine (Session.holdsNull_of_resolve null).elim suits.cwd (suits.texts _ ?_)
      rcases redirects with err | out
      · simp [Command.texts, err]
      · simp [Command.texts, out]
    · rcases redirects with err | out
      · exact suits.ways .err r err lacks
      · exact suits.ways .out r out lacks
  | @work name _ opened named opens balks =>
    have session : opened.session = w.session := by
      have kept := w.openRedirects_session c
      rwa [opens] at kept
    refine not_balks (fun text listed => suits.texts text ?_) (session ▸ suits.cwd)
      (session ▸ suits.env) (fun isCat => suits.ends (isCat ▸ named) opened opens) balks
    rcases List.mem_cons.1 listed with rfl | given
    · simp [Command.texts, named]
    · simp [Command.texts, given]

end World

namespace Act

open World

variable {w v opened : World} {c : Command} {name : String} {refusal : Refusal} {fault : Fault}
  {act : Act Int}

theorem completing_error (failed : act w = .error fault v) :
    completing act w = .error fault v.closeRedirects := by
  simp [completing, closing, failed]

theorem completing_error_iff :
    (∃ v, completing act w = .error fault v) ↔ ∃ v, act w = .error fault v := by
  cases ran : act w with
  | ok status v => simp [completing, closing, ran]
  | error fault' v => simp [completing_error ran]

theorem execute_faulted (named : c.name = some name)
    (failed : openRedirects c w = .error fault opened) :
    execute c w = .error fault opened.closeRedirects := by
  have stopped : perform .usual name c w = .error fault opened := by
    rw [perform, bind_apply, failed]
  rw [execute_named named]
  exact completing_error stopped

/-- A redirection that is refused is said on the stream for the errors. -/
theorem ends_refused (named : c.name = some name)
    (refused : openRedirects c w = .ok (some refusal) opened) (accepts : opened.Accepts) :
    w.Ends c opened failureStatus (.only .err (opened.reportLine refusal.line)) := by
  obtain ⟨v, ran, speaks⟩ := report_utters accepts refusal.line
  have reported : perform .usual name c w = .ok failureStatus v := by
    rw [perform_refused refused, bind_apply, ran]
    rfl
  refine ⟨v, speaks, ?_⟩
  rw [execute_named named]
  exact completing_closeRedirects reported rfl

/-- What the work of a command says the command says. -/
theorem ends_of_utters (named : c.name = some name)
    (opens : openRedirects c w = .ok none opened) {status : Int} {said : Both Bytes}
    (utters : Utters (dispatch .usual name c.arguments) opened status said) :
    w.Ends c opened status said := by
  obtain ⟨v, ran, speaks⟩ := utters
  refine ⟨v, speaks, ?_⟩
  rw [execute, executeBy_opened named opens]
  exact completing_closeRedirects ran rfl

/-- A command stops with a fault exactly where it stumbles. -/
theorem execute_error_iff (named : c.name = some name)
    (accepts : ((openRedirects c).run w).Accepts) :
    (∃ v, execute c w = .error fault v) ↔ w.Stumbles c fault := by
  unfold Act.run at accepts
  cases opening : openRedirects c w with
  | error fault' opened =>
    rw [execute_faulted named opening, stumbles_iff_of_fails opening]
    simp
  | ok refusal opened =>
    rw [opening] at accepts
    cases refusal with
    | some refusal =>
      obtain ⟨v, _, ran⟩ := ends_refused named opening accepts
      exact iff_of_false (not_error_of_ok ran) (not_stumbles_of_refused opening)
    | none =>
      rw [execute, executeBy_opened named opening, completing_error_iff,
        dispatch_error_iff accepts, stumbles_iff_of_opens named opening]

/-- Where the work of a command stops so does the command. -/
theorem stops_of_breaks (named : c.name = some name)
    (opens : openRedirects c w = .ok none opened) {said : Both Bytes}
    (breaks : Breaks (dispatch .usual name c.arguments) opened fault said) :
    w.Stops c opened fault said := by
  obtain ⟨v, failed, speaks⟩ := breaks
  refine ⟨v, speaks, ?_⟩
  rw [execute, executeBy_opened named opens]
  exact completing_error failed

/-- Where the streams that it opens take what is written, a command stops with a fault if and only
if it stumbles, and where the world is fit for it it comes to a status.

A redirection that is refused, a program that is not found or not started, and a file that `cat`
cannot read are said on the stream that the command has for its errors, and it comes to a status of
its own for that. Whatever reading a file comes to, `cat` reads the next one. But of what it stumbles
over a command says nothing, and `cat` reads no file behind one of which reading comes to nothing,
for its name or because there is no end to it. -/
theorem execute_ends (named : c.name = some name) (accepts : ((openRedirects c).run w).Accepts) :
    (∀ fault, (∃ v, execute c w = .error fault v) ↔ w.Stumbles c fault) ∧
    (w.Suits c → ∃ status v, execute c w = .ok status v) ∧
    (∀ fault opened, openRedirects c w = .error fault opened →
      w.Stops c opened fault .nothing ∧ ∃ r, (c.stderr = some r ∨ c.stdout = some r) ∧
        (fault = .nullByte ∧ holdsNull (w.session.resolve r.path) ∨
          fault = .tooDeep ∧ w.LacksWay r)) ∧
    (∀ refusal opened, openRedirects c w = .ok (some refusal) opened →
      w.Ends c opened failureStatus (.only .err (opened.reportLine refusal.line))) ∧
    ∀ opened, openRedirects c w = .ok none opened →
      (Builtin.ofName? name = none → (opened.candidates name).head? = none →
        w.Ends c opened notFoundStatus
          (.only .err (opened.reportLine s!"{name}: command not found"))) ∧
      (∀ path, Builtin.ofName? name = none → (opened.candidates name).head? = some path →
        let file := Path.join opened.session.cwd path
        let stumbles := handoverFault? file (name :: c.arguments) opened.session
        (∀ fault, stumbles = some fault → w.Stops c opened fault .nothing) ∧
        ∀ e, stumbles = none → prepareChild opened file c.arguments = .error e →
          w.Ends c opened notLaunchedStatus
            (.only .err (opened.reportLine s!"minishell: {name}: {e.text}"))) ∧
      (name = "cat" → (∀ argument ∈ c.arguments, opened.Yields argument) →
        let outcomes := opened.readInTurn c.arguments
        outcomes.length = c.arguments.length ∧ w.Ends c opened (Builtin.catStatus outcomes)
          ⟨opened.shownContents outcomes, opened.complaints c.arguments outcomes⟩) ∧
      ∀ before argument after fault, name = "cat" → c.arguments = before ++ argument :: after →
        (∀ other ∈ before, opened.Yields other) → opened.Defies argument fault →
        let outcomes := opened.readInTurn before
        outcomes.length = before.length ∧ w.Stops c opened fault
          ⟨opened.shownContents outcomes, opened.complaints before outcomes⟩ := by
  refine ⟨fun fault => execute_error_iff named accepts, fun suits => ?_, ?_, ?_, ?_⟩
  · cases ran : execute c w with
    | ok status v => exact ⟨status, v, rfl⟩
    | error fault v =>
      exact absurd ((execute_error_iff named accepts).1 ⟨v, ran⟩) (suits.not_stumbles fault)
  · intro fault opened fails
    exact ⟨⟨opened, .refl opened, execute_faulted named fails⟩, openRedirects_fault fails⟩
  · intro refusal opened refused
    exact ends_refused named refused (by simpa [Act.run, refused] using accepts)
  · intro opened opens
    have accepts' : opened.Accepts := by simpa [Act.run, opens] using accepts
    refine ⟨fun free missing => ?_, fun path free found => ⟨?_, ?_⟩, ?_, ?_⟩
    · exact ends_of_utters named opens (dispatch_missing_utters accepts' free missing c.arguments)
    · intro fault stumbles
      exact stops_of_breaks named opens (dispatch_handover_breaks free found stumbles)
    · intro e accepted refused
      have utters := dispatch_refused_utters accepts' free found accepted refused
      exact ends_of_utters named opens utters
    · rintro rfl yields
      exact ⟨Builtin.length_readInTurn accepts' yields,
        ends_of_utters named opens (dispatch_cat_utters accepts' yields)⟩
    · rintro before argument after fault rfl given yields defies
      have breaks := dispatch_cat_breaks accepts' yields defies after
      exact ⟨Builtin.length_readInTurn accepts' yields,
        stops_of_breaks named opens (given ▸ breaks)⟩

/-- What `cat nosuch old 2> errors` comes to. -/
theorem cat_ends_oneFile :
    let c : Command :=
      { name := some "cat", arguments := ["nosuch", "old"], stderr := some ⟨"errors", false⟩ }
    let opened := (openRedirects c).run oneFile
    let said := Utf8.encode "cat: nosuch: No such file or directory\n"
    c.name = some "cat" ∧ opened.Accepts ∧ oneFile.Suits c ∧
    openRedirects c oneFile = .ok none opened ∧
    (∀ argument ∈ c.arguments, opened.Yields argument) ∧
    (∃ status v, execute c oneFile = .ok status v) ∧
    oneFile.Ends c opened 1 ⟨Utf8.encode "kept", said⟩ ∧
    ((execute c).run oneFile).files.contents? 2 = some said := by
  intro c opened said
  have opens : openRedirects c oneFile = .ok none opened := by decide +kernel
  have accepts : opened.Accepts := by decide +kernel
  have yields : ∀ argument ∈ c.arguments, opened.Yields argument := by decide +kernel
  have suits : oneFile.Suits c := by
    refine ⟨by decide, by decide, by decide, fun channel r redirects lacks => ?_, ?_⟩
    · cases channel with
      | out => cases redirects
      | err =>
        cases redirects
        exact absurd lacks.1 (by decide +kernel)
    · intro _ opened' opens'
      obtain ⟨_, rfl⟩ := EStateM.Result.ok.inj (opens.symm.trans opens')
      decide +kernel
  obtain ⟨_, returns, _, _, works⟩ := execute_ends rfl accepts
  obtain ⟨_, _, goesOn, _⟩ := works opened opens
  have ends := (goesOn rfl yields).2
  have outcomes : opened.readInTurn c.arguments = [.error .noEntry, .ok (Utf8.encode "kept")] := by
    decide +kernel
  have told : (⟨opened.shownContents (opened.readInTurn c.arguments),
      opened.complaints c.arguments (opened.readInTurn c.arguments)⟩ : Both Bytes) =
        ⟨Utf8.encode "kept", said⟩ := by
    decide +kernel
  rw [told, outcomes] at ends
  exact ⟨rfl, accepts, suits, opens, yields, returns suits, ends, by decide +kernel⟩

/-- A name that no file can have is no name of a file that is missing: `cat` neither says so in the
file for its errors nor reads the next file, and the command comes to no status. -/
theorem cat_stops_oneFile :
    let c : Command :=
      { name := some "cat", arguments := ["a\x00b", "old"], stderr := some ⟨"errors", false⟩ }
    let after := (execute c).run oneFile
    ((openRedirects c).run oneFile).Accepts ∧
    oneFile.readOf "old" = some (.ok (Utf8.encode "kept")) ∧
    ¬ (∃ status v, execute c oneFile = .ok status v) ∧
    execute c oneFile = .error .nullByte after ∧
    after.files.contents? 2 = some [] ∧ after.terminals.out.shown = [] := by
  intro c after
  have accepts : ((openRedirects c).run oneFile).Accepts := by decide +kernel
  have stopped : execute c oneFile = .error .nullByte after := by decide +kernel
  refine ⟨accepts, rfl, ?_, stopped, by decide +kernel, by decide +kernel⟩
  rintro ⟨status, v, ran⟩
  cases stopped.symm.trans ran

/-- A device without an end is not an empty one. -/
example :
    let w : World :=
      { files := .initial "w", here := FileSystem.workplace, session := { cwd := "/w", env := [] } }
    let names := ["nosuch", "/dev/null", "/dev/full", "nosuch"]
    let c : Command := { name := some "cat", arguments := names }
    execute c w matches .error .endless _ ∧ w.readInTurn names = [.error .noEntry, .ok []] ∧
    ((execute c).run w).terminals.err.shown =
      Utf8.encode "cat: nosuch: No such file or directory\n" := by
  decide +kernel

end Act

end LineShell
