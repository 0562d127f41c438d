import LineShell.Proofs.Execution.Course
import LineShell.Proofs.Redirection.Lines
import LineShell.Proofs.TwoRuns.Launches

/-!
# Two runs on one state

Worlds that share the session, the tree and the open files answer all questions in the same way,
and only what the terminals and the log hold can differ between them. A relation of such worlds
(`Sharing`) goes on through the opening, the writing and the closing of files, whatever it says of
the terminals. If it goes on through texts and errors as well (`Saying`), the builtins are in step
that say texts only (`Saying.answering`), and through bytes that are passed on, so is every builtin
(`Speaking.correspondence`). A child is in step with itself if the relation goes on through bytes that
are written past the buffers (`Hosting.start_respects`).
-/

namespace LineShell

open Act Act.InStep

/-- Worlds that correspond share what a command can see, and they correspond still when the tree
and the open files change in both, or a record is kept in both. -/
structure Sharing (R : World → World → Prop) : Prop where
  shares : ∀ {w v}, R w v → v.SharesState w
  change : ∀ {w v} files redirects, R w v →
    R { w with files, redirects } { v with files, redirects }
  note : ∀ {w v} level source message, R w v →
    R (w.note level source message) (v.note level source message)

namespace Sharing

variable {R : World → World → Prop} (sharing : Sharing R) {w v : World}
include sharing

theorem changeFiles (files : FileSystem) (related : R w v) :
    R { w with files } { v with files } := by
  have same : ({ v with files, redirects := w.redirects } : World) = { v with files } := by
    rw [← (sharing.shares related).redirects]
  rw [← same]
  exact sharing.change files w.redirects related

theorem candidates_eq (name : String) (related : R w v) : v.candidates name = w.candidates name := by
  have shares := sharing.shares related
  unfold World.candidates World.isExecutable
  rw [shares.files, shares.here, shares.session]

theorem prepareChild_eq (file : String) (arguments : List String) (related : R w v) :
    prepareChild v file arguments = prepareChild w file arguments :=
  (sharing.shares related).prepareChild_eq file arguments

/-! ## Files that stand in for streams -/

theorem onFile_respects (c : Channel) (file : OpenFile) (act : FileAct Unit) :
    Respects R (onFile c file act) := by
  intro w v related
  have shares := sharing.shares related
  simp only [onFile, shares.files, shares.redirects]
  cases act (file, w.files) with
  | ok _ state => exact .ok _ (sharing.change _ _ related)
  | error e state => exact .error _ (sharing.change _ _ related)

theorem openRedirect_respects (c : Channel) (r : Option Redirect) :
    Respects R (openRedirect c r) := by
  cases r with
  | none => exact InStep.pure none
  | some r =>
    unfold openRedirect
    dsimp only
    split
    · exact InStep.pure _
    · intro w v related
      have shares := sharing.shares related
      have path : Path.resolve v.session.cwd r.path = Path.resolve w.session.cwd r.path := by
        rw [shares.session]
      have same : v.files.openTarget v.here (Path.resolve w.session.cwd r.path) r.append =
          w.files.openTarget w.here (Path.resolve w.session.cwd r.path) r.append := by
        rw [shares.files, shares.here]
      simp only [bind_apply, get_apply, set_apply, path, same]
      generalize w.files.openTarget w.here (Path.resolve w.session.cwd r.path) r.append = opened
      obtain ⟨files, outcome⟩ := opened
      have changed := sharing.changeFiles files related
      dsimp only
      cases outcome with
      | ok node =>
        simp only [modify_apply, bind_apply, pure_apply, shares.redirects]
        exact .ok _ (sharing.change files _ related)
      | error fault =>
        -- only what the system refuses is reported, the rest is a fault of the command
        cases fault with
        | refused e => exact .ok _ changed
        | nullByte => exact .error _ changed
        | illegalVariableName => exact .error _ changed
        | tooDeep => exact .error _ changed
        | endless => exact .error _ changed
        | notBuiltin => exact .error _ changed

theorem openRedirects_respects (command : Command) : Respects R (openRedirects command) := by
  apply bind (sharing.openRedirect_respects .err command.stderr)
  intro refusal
  cases refusal with
  | some refusal => exact InStep.pure _
  | none => exact sharing.openRedirect_respects .out command.stdout

theorem closeRedirect (c : Channel) (related : R w v) :
    R (w.closeRedirect c) (v.closeRedirect c) := by
  have shares := sharing.shares related
  simp only [World.closeRedirect, shares.redirects, shares.files]
  cases w.redirects.get c with
  | none => exact related
  | some file =>
    dsimp only
    have closed := sharing.change (file.close w.files).1 (w.redirects.set c none) related
    cases (file.close w.files).2 with
    | none => exact closed
    | some e => exact sharing.note _ _ _ closed

theorem closeRedirects (related : R w v) : R w.closeRedirects v.closeRedirects :=
  sharing.closeRedirect .out (sharing.closeRedirect .err related)

theorem closing_sameOutcome {α : Type} {act act' : Act α} (h : SameOutcome R (act w) (act' v)) :
    SameOutcome R (closing act w) (closing act' v) := by
  simp only [closing]
  generalize act w = result at h ⊢
  generalize act' v = result' at h ⊢
  cases h with
  | ok value related => exact .ok value (sharing.closeRedirects related)
  | error fault related => exact .error fault (sharing.closeRedirects related)

/-- Cutting a line into words leaves nothing but records. -/
theorem parseLine_respects (line : String) : Respects R (parseLine line) := by
  have noted : ∀ source message, Respects R (Act.note .debug source message) :=
    fun _ _ => modify_of fun _ _ => sharing.note _ _ _
  have quote : Respects R (noteOpenQuote line) := by
    unfold noteOpenQuote
    cases Token.openQuote line with
    | some q => exact noted .words _
    | none => exact InStep.pure _
  apply bind quote
  intro _
  apply bind (noted .reading _)
  intro _
  exact InStep.pure _

end Sharing

/-! ## Builtins -/

/-- Besides, texts on the standard output and changes of the session are the same in both. -/
structure Saying (R : World → World → Prop) : Prop extends Sharing R where
  remember : ∀ {w v} (f : Session → Session), R w v →
    R { w with session := f w.session } { v with session := f v.session }
  print : ∀ {w v} (text : String), R w v →
    R (w.onTerminal .out (·.print (Utf8.encode text)))
      (v.onTerminal .out (·.print (Utf8.encode text)))
  flush : ∀ {w v}, R w v → R (w.onTerminal .out (·.flush)) (v.onTerminal .out (·.flush))

/-- Besides, both standard outputs take bytes in the same way. -/
structure Speaking (R : World → World → Prop) : Prop extends Saying R where
  textOnly : ∀ {w v}, R w v → v.console.textOnly = w.console.textOnly
  pass : ∀ {w v} bytes, R w v →
    R (w.onTerminal .out fun t => (t.print bytes).flush)
      (v.onTerminal .out fun t => (t.print bytes).flush)

namespace Saying

variable {R : World → World → Prop} (saying : Saying R)
include saying

theorem remember_respects (f : Session → Session) : Respects R (Act.remember f) :=
  modify_of fun _ _ => saying.remember f

theorem print_respects (text : String) : Respects R (Act.print .out text) := by
  apply get_bind
  intro w v related
  rw [(saying.shares related).redirects]
  cases w.redirects.get .out with
  | none => exact modify_of fun _ _ => saying.print _
  | some file => exact saying.onFile_respects .out file _

theorem flush_respects : Respects R (Act.flush .out) := by
  apply get_bind
  intro w v related
  rw [(saying.shares related).redirects]
  cases w.redirects.get .out with
  | none => exact modify_of fun _ _ => saying.flush
  | some file => exact saying.onFile_respects .out file _

/-- In a file an error looks the same, so only the terminal has to be looked at. -/
theorem report_respects (terminal : ∀ {w v} message, R w v → w.redirects.get .err = none →
      R (w.onTerminal .err fun t => (t.print (w.errorLine message)).flush)
        (v.onTerminal .err fun t => (t.print (v.errorLine message)).flush)) (message : String) :
    Respects R (report message) := by
  intro w v related
  have shares := saying.shares related
  cases stands : w.redirects.get .err with
  | none =>
    have stands' : v.redirects.get .err = none := by rw [shares.redirects, stands]
    rw [report_apply stands, report_apply stands']
    exact .ok _ (terminal message related stands)
  | some file =>
    have stands' : v.redirects.get .err = some file := by rw [shares.redirects, stands]
    rw [report_onFile stands, report_onFile stands', writeLine_onFile stands,
      writeLine_onFile stands']
    exact saying.onFile_respects .err file _ related

theorem answering (report : ∀ message, Respects R (report message)) : Answering R where
  session related := (saying.shares related).session
  debug source message related := saying.note .debug source message related
  print := saying.print_respects
  flush := saying.flush_respects
  report := report
  candidates name related := saying.candidates_eq name related
  directoryError? path related := by
    have shares := saying.shares related
    unfold Builtin.directoryError?
    rw [shares.files, shares.here]
  remember f related := saying.remember f related

/-- That a line could not be carried out is said in both worlds. -/
theorem reportFault_respects (report : ∀ message, Respects R (Act.report message)) (line : String)
    (fault : Fault) : Respects R (reportFault line fault) := by
  have noted : ∀ message, Respects R (note .error .reading message) :=
    fun _ => modify_of fun _ _ => saying.note _ _ _
  apply bind (noted _)
  intro _
  apply bind (report _)
  intro _
  exact saying.remember_respects _

/-- A command is completed in both worlds alike. -/
theorem completing_sameOutcome {act act' : Act Int} {w v : World}
    (h : SameOutcome R (act w) (act' v)) :
    SameOutcome R (completing act w) (completing act' v) := by
  apply (saying.closing_sameOutcome h).bind
  intro status w v related
  exact bind (saying.remember_respects _) (fun _ => InStep.pure status) related

end Saying

namespace Speaking

variable {R : World → World → Prop} (speaking : Speaking R)
include speaking

theorem printBytes_respects (bytes : Bytes) : Respects R (printBytes .out bytes) := by
  apply get_bind
  intro w v related
  rw [(speaking.shares related).redirects]
  cases w.redirects.get .out with
  | none =>
    -- both terminals take the bytes as they are, or both take them as text
    apply modify_of
    intro w v related
    rw [speaking.textOnly related]
    exact speaking.pass _ related
  | some file => exact speaking.onFile_respects .out file _

theorem correspondence (report : ∀ message, Respects R (report message)) : Correspondence R where
  toAnswering := speaking.answering report
  printBytes := speaking.printBytes_respects

/-- A builtin is in step with itself where errors are. -/
theorem run_respects (report : ∀ message, Respects R (Act.report message)) (b : Builtin)
    (arguments : List String) : Respects R (b.run arguments) := by
  apply (speaking.correspondence report).run_respects b
  intro _ name _ w v related
  have shares := speaking.shares related
  rw [shares.files, shares.here, shares.session]

end Speaking

/-! ## Children -/

/-- Besides, a child writes to both terminals or to none, and what it writes past the buffers leaves
the worlds corresponding. -/
structure Hosting (R : World → World → Prop) : Prop extends Sharing R where
  textOnly : ∀ {w v}, R w v → v.console.textOnly = w.console.textOnly
  write : ∀ {w v} c bytes, R w v →
    R (w.onTerminal c (·.write bytes)) (v.onTerminal c (·.write bytes))

namespace Hosting

variable {R : World → World → Prop} (hosting : Hosting R) {w v : World}
include hosting

theorem receive (c : Channel) (bytes : Bytes) (related : R w v) :
    R (w.receive c bytes) (v.receive c bytes) := by
  have shares := hosting.shares related
  simp only [World.receive, shares.redirects, shares.files, hosting.textOnly related]
  cases w.redirects.get c with
  | none =>
    dsimp only
    split
    · exact related
    · exact hosting.write c bytes related
  | some file =>
    dsimp only
    cases OpenFile.write bytes (file, w.files) with
    | ok _ state => exact hosting.change _ _ related
    | error _ _ => exact related

theorem withFiles {ε : Type} (related : R w v) (changed : Except ε FileSystem) :
    R (w.withFiles changed) (v.withFiles changed) := by
  cases changed with
  | ok files => exact hosting.changeFiles files related
  | error _ => exact related

theorem perform (related : R w v) (child : Child) (action : Action) :
    R (child.perform w action) (child.perform v action) := by
  have same := (hosting.shares related).files
  cases action with
  | out text => exact hosting.receive .out _ related
  | err text => exact hosting.receive .err _ related
  | showArguments => exact hosting.receive .out _ related
  | showDirectory =>
    simp only [Child.perform, same]
    exact hosting.receive .out _ related
  | showVariable name => exact hosting.receive .out _ related
  | write path text =>
    simp only [Child.perform, same]
    exact hosting.withFiles related _
  | remove path =>
    simp only [Child.perform, same]
    exact hosting.withFiles related _
  | permit path access =>
    simp only [Child.perform, same]
    exact hosting.withFiles related _
  | interrupt => exact related
  | die signal => exact related
  | finish status => exact related

theorem runActions (related : R w v) (child : Child) (actions : List Action) :
    (child.runActions actions v).1 = (child.runActions actions w).1 ∧
      R (child.runActions actions w).2 (child.runActions actions v).2 := by
  induction actions generalizing w v with
  | nil => exact ⟨rfl, related⟩
  | cons action actions ih =>
    cases action with
    | finish status => exact ⟨rfl, related⟩
    | die signal => exact ⟨rfl, related⟩
    | _ => exact ih (hosting.perform related child _)

/-- A child does the same in both worlds. -/
theorem run (related : R w v) (child : Child) (program : Program) :
    (child.run program v).1 = (child.run program w).1 ∧
      R (child.run program w).2 (child.run program v).2 := by
  unfold Child.run
  rw [(hosting.shares related).files]
  exact hosting.runActions related child _

theorem start_respects (name file : String) (arguments : List String) :
    Respects R (start name file arguments) := by
  intro w v related
  apply start_sameOutcome related (hosting.shares related).session
  apply runChild_sameOutcome related (fun _ _ => hosting.note _ _ _)
    (hosting.prepareChild_eq file arguments related)
  exact fun program child _ => hosting.run related child program

end Hosting

end LineShell
