import LineShell.Proofs.OpenFile
import LineShell.Proofs.Redirection.Noted
import LineShell.Proofs.TwoRuns.Launches

/-!
# A run beside one with its streams in files

`World.Beside` relates the worlds of two runs of a command: in the one the command has the
streams of the shell, in the other files stand in for some of them. All else is the same, also
what every file holds but those.

Where the bytes that are said have gone is another relation between the two worlds, and there
is more than one. A `Diversion` is such a relation that is kept by what a command and its
children do to the streams. What a command says then keeps it (`Diversion.reporting`), and so
does the rest of what a builtin does (`Diversion.correspondence`).
-/

namespace LineShell

open Act Act.InStep

/-- A file that stands in for a stream, and what it held when the command began. -/
structure Target where
  node : NodeId
  before : Bytes

namespace World

/-- The worlds of two runs since `origin`, apart from their streams. In the world of the other run
files stand in for streams, of which it is given what they hold. -/
structure Beside (held : NodeId → Option Bytes) (origin : World) (targets : Both (Option Target))
    (w v : World) : Prop where
  idle : w.IsIdle
  session : v.session = w.session
  here : v.here = w.here
  console : v.console = w.console
  records : v.records = w.records
  echo : v.echo = w.echo
  raw : w.console.textOnly = false
  plain : w.console.colors = false
  logs : NotedSince origin w
  files : w.files.Veils held v.files
  only : ∀ {id data}, held id = some data →
    ∃ c target, targets.get c = some target ∧ target.node = id

variable {held : NodeId → Option Bytes} {origin : World} {targets : Both (Option Target)}
  {w v : World}

namespace Beside

theorem refl (idle : w.IsIdle) (raw : w.console.textOnly = false)
    (plain : w.console.colors = false) (files : w.files.Veils held w.files)
    (only : ∀ {id data}, held id = some data →
      ∃ c target, targets.get c = some target ∧ target.node = id) :
    Beside held w targets w w :=
  ⟨idle, rfl, rfl, rfl, rfl, rfl, raw, plain, .refl w, files, only⟩

theorem note_debug (beside : Beside held origin targets w v) (source : Log.Source)
    (message : String) : Beside held origin targets (w.note .debug source message)
      (v.note .debug source message) where
  idle := by simpa [IsIdle] using beside.idle
  session := by simpa using beside.session
  here := by simpa using beside.here
  console := by simpa using beside.console
  records := by simpa using beside.records
  echo := by simpa using beside.echo
  raw := by simpa using beside.raw
  plain := by simpa using beside.plain
  logs := beside.logs.note source message
  files := by simpa using beside.files
  only := beside.only

/-- A file that stands in for a stream is given other contents. -/
theorem withContents (beside : Beside held origin targets w v) {id : NodeId} {data : Bytes}
    (holds : held id = some data) (new : Bytes) :
    Beside (fun other => if other = id then some new else held other) origin targets w
      { v with files := v.files.withContents id new } := by
  refine { beside with files := beside.files.withContents holds new, only := ?_ }
  intro other data' holds'
  by_cases same : other = id
  · exact beside.only (same ▸ holds)
  · rw [if_neg same] at holds'
    exact beside.only holds'

end Beside

/-- A file that stands in for a stream takes what is in its buffers with it when it is closed. -/
theorem closeRedirect_eq {c : Channel} {file : OpenFile} {data : Bytes}
    (stands : v.redirects.get c = some file) (holds : v.files.contents? file.node = some data)
    (atEnd : file.append = true ∨ file.offset = data.length) : v.closeRedirect c =
      { v with
        files := v.files.withContents file.node (data ++ file.block ++ file.text)
        redirects := v.redirects.set c none } := by
  have regular : (v.files.contents? file.node).isSome := by simp [holds]
  have written : OpenFile.Written v.files file.node file.append data (file, v.files) :=
    ⟨rfl, rfl, (FileSystem.withContents_self holds).symm, atEnd⟩
  simp [closeRedirect, stands, OpenFile.close_eq regular written]

end World

/-- A relation between the worlds of two runs, of which the other one has streams in files. It is
given what these files hold, and kept by whatever happens to the streams and to other files. -/
structure Diversion (origin : World) (targets : Both (Option Target))
    (R : (NodeId → Option Bytes) → World → World → Prop) : Prop where
  beside : ∀ {held w v}, R held w v → World.Beside held origin targets w v
  /-- A file that is open stands in for a stream and is written to at its end. -/
  opened : ∀ {held w v c file}, R held w v → v.redirects.get c = some file →
    ∃ data, held file.node = some data ∧ (file.append = true ∨ file.offset = data.length)
  note : ∀ {held w v} source message, R held w v →
    R held (w.note .debug source message) (v.note .debug source message)
  remember : ∀ {held w v} (f : Session → Session), R held w v →
    R held { w with session := f w.session } { v with session := f v.session }
  edit : ∀ {held w v fs gs}, R held w v → FileSystem.Veils held fs gs →
    R held { w with files := fs } { v with files := gs }
  flushTerminals : ∀ {held w v}, R held w v → R held w.flushTerminals v.flushTerminals
  /-- Something is written to a stream that no file stands in for. -/
  onTerminal : ∀ {held w v c} g, R held w v → v.redirects.get c = none →
    R held (w.onTerminal c g) (v.onTerminal c g)
  /-- What the terminal of the one run shows besides has gone to the file of the other run. -/
  write : ∀ {held w v c file data passed bytes file' g}, R held w v →
    v.redirects.get c = some file → held file.node = some data → file'.node = file.node →
    file'.append = file.append → (file'.append = true ∨ file'.offset = (data ++ passed).length) →
    passed ++ file'.block ++ file'.text = file.block ++ file.text ++ bytes →
    (g (w.terminals.get c)).shown = (w.terminals.get c).shown ++ bytes →
    R (fun id => if id = file.node then some (data ++ passed) else held id) (w.onTerminal c g)
      { v with
        files := v.files.withContents file.node (data ++ passed)
        redirects := v.redirects.set c (some file') }

/-- Two worlds are related, whatever the files hold that stand in for streams. -/
def World.Related (R : (NodeId → Option Bytes) → World → World → Prop) (w v : World) : Prop :=
  ∃ held, R held w v

namespace Diversion

open World

variable {origin : World} {targets : Both (Option Target)}
  {R : (NodeId → Option Bytes) → World → World → Prop} (diversion : Diversion origin targets R)
  {held : NodeId → Option Bytes} {w v : World} {c : Channel}
include diversion

/-- A file that stands in for a stream, as the state of an action on it. -/
theorem exists_written (related : R held w v) {file : OpenFile}
    (stands : v.redirects.get c = some file) : ∃ data, held file.node = some data ∧
      (v.files.contents? file.node).isSome ∧
      OpenFile.Written v.files file.node file.append data (file, v.files) := by
  obtain ⟨data, holds, atEnd⟩ := diversion.opened related stands
  have contents := (diversion.beside related).files.contents?_eq holds
  refine ⟨data, holds, by simp [contents], rfl, rfl, ?_, atEnd⟩
  exact (FileSystem.withContents_self contents).symm

/-! ## What is said -/

/-- An action that says something, on a terminal or to a file. -/
theorem say_respects (fileAct : FileAct Unit) (bytes : Bytes) {act : Act Unit}
    {g : Terminal → Terminal}
    (onTerminal : ∀ w : World, w.console.textOnly = false → w.redirects.get c = none →
      act w = .ok () (w.onTerminal c g))
    (onFile_ : ∀ (w : World) (file : OpenFile), w.redirects.get c = some file →
      act w = onFile c file fileAct w)
    (shown : ∀ t : Terminal, (g t).shown = t.shown ++ bytes)
    (written : ∀ {fs : FileSystem} {node : NodeId} {append : Bool} {data : Bytes}
      {state : OpenFile × FileSystem}, (fs.contents? node).isSome →
      OpenFile.Written fs node append data state → ∃ after passed, fileAct state = .ok () after ∧
        OpenFile.Written fs node append (data ++ passed) after ∧
        passed ++ after.1.block ++ after.1.text = state.1.block ++ state.1.text ++ bytes) :
    Respects (Related R) act := by
  rintro w v ⟨held, related⟩
  have beside := diversion.beside related
  rw [onTerminal w beside.raw (beside.idle.get c)]
  cases stands : v.redirects.get c with
  | none =>
    -- both runs say it on the same terminal
    rw [onTerminal v (by rw [beside.console]; exact beside.raw) stands]
    exact .ok () ⟨held, diversion.onTerminal g related stands⟩
  | some file =>
    -- the one run says it on the terminal, the other one to the file
    obtain ⟨data, holds, regular, start⟩ := diversion.exists_written related stands
    obtain ⟨⟨file', files'⟩, passed, ran, written', kept⟩ := written regular start
    obtain rfl : files' = v.files.withContents file.node (data ++ passed) := written'.files
    rw [onFile_ v file stands, onFile, ran]
    exact .ok () ⟨_, diversion.write related stands holds written'.same written'.mode
      written'.atEnd kept (shown _)⟩

theorem print_respects (c : Channel) (text : String) : Respects (Related R) (print c text) :=
  diversion.say_respects (OpenFile.print (Utf8.encode text)) (Utf8.encode text)
    (fun _ _ free => print_apply free text) (fun _ _ stands => by simp [print, stands])
    (fun t => Terminal.shown_print t (Utf8.encode text))
    fun regular written => OpenFile.print_written regular written _

theorem flush_respects (c : Channel) : Respects (Related R) (flush c) :=
  diversion.say_respects OpenFile.flush [] (fun _ _ free => flush_apply free)
    (fun _ _ stands => by simp [flush, stands]) (by simp) fun regular written => by
      obtain ⟨after, ran, written', block, text⟩ := OpenFile.flush_written regular written
      rw [List.append_assoc] at written'
      exact ⟨after, _, ran, written', by simp [block, text]⟩

theorem printBytes_respects (c : Channel) (bytes : Bytes) :
    Respects (Related R) (printBytes c bytes) :=
  diversion.say_respects (OpenFile.printBytes bytes) bytes (c := c)
    (g := fun t => (t.print bytes).flush)
    (fun _ raw free => printBytes_apply free raw bytes)
    (fun _ _ stands => by simp [printBytes, stands]) (by simp) fun regular written => by
      obtain ⟨after, ran, written', block, text⟩ :=
        OpenFile.printBytes_written regular written bytes
      rw [List.append_assoc, List.append_assoc] at written'
      exact ⟨after, _, ran, written', by simp [block, text]⟩

/-- Without colors an error reads the same on a terminal and in a file. -/
theorem report_respects (message : String) : Respects (Related R) (report message) := by
  apply get_bind
  rintro w v ⟨held, related⟩
  have beside := diversion.beside related
  have text : ∀ isTerminal, Highlight.highlight message "RED" isTerminal false = message :=
    fun _ => rfl
  rw [beside.console, beside.plain, text, text]
  apply bind (bind (diversion.print_respects .err message) fun _ =>
    diversion.print_respects .err "\n")
  intro _
  exact diversion.flush_respects .err

theorem reporting : Reporting (Related R) where
  session := by
    rintro w v ⟨held, related⟩
    exact (diversion.beside related).session
  debug := by
    rintro w v source message ⟨held, related⟩
    exact ⟨held, diversion.note source message related⟩
  print := diversion.print_respects .out
  flush := diversion.flush_respects .out
  printBytes := diversion.printBytes_respects .out
  report := diversion.report_respects

theorem correspondence : Correspondence (Related R) where
  toReporting := diversion.reporting
  candidates := by
    rintro w v name ⟨held, related⟩
    have beside := diversion.beside related
    unfold candidates isExecutable
    simp only [beside.session, beside.here, beside.files.hasExecutable_eq]
  directoryError? := by
    rintro w v path ⟨held, related⟩
    have beside := diversion.beside related
    unfold Builtin.directoryError?
    rw [beside.here]
    rcases beside.files.lookup_cases w.here path with same | ⟨_, _, _, _, _, before, after⟩
    · rw [same]
    · rw [before, after]
  remember := by
    rintro w v f ⟨held, related⟩
    exact ⟨held, diversion.remember f related⟩

end Diversion

end LineShell
