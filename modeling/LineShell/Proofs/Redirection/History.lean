import LineShell.Proofs.Execution.Course
import LineShell.Proofs.Redirection.Lines
import LineShell.Proofs.Redirection.Noted
import LineShell.Proofs.Redirection.Targets

/-!
# A file that is written to again and again

Several commands `echo` write to one file, some from its end and some in place of what it holds.
Once the file could be opened it can be opened by each command that follows, and in the end it
holds the lines since the last command that threw away what was there
(`Remark.foldl_extend_truncate`).

Main statement: `writeAll_keepsRemarks`.
-/

namespace LineShell

/-- One command `echo`: its words, and whether it writes from the end of the file. -/
structure Remark where
  words : List String
  append : Bool

namespace Remark

def line (e : Remark) : Bytes :=
  Utf8.encode (" ".intercalate e.words ++ "\n")

def redirect (path : String) (e : Remark) : Redirect :=
  ⟨path, e.append⟩

def command (path : String) (e : Remark) : Command :=
  { name := some "echo", arguments := e.words, stdout := some (e.redirect path) }

/-- What a file holds after the command, if it held `old` before. -/
def extend (old : Bytes) (e : Remark) : Bytes :=
  (if e.append then old else []) ++ e.line

theorem foldl_extend_append (old : Bytes) {remarks : List Remark}
    (appends : ∀ e ∈ remarks, e.append = true) :
    remarks.foldl extend old = old ++ remarks.flatMap line := by
  induction remarks generalizing old with
  | nil => simp
  | cons e rest ih =>
    rw [List.foldl_cons, ih _ fun e' listed => appends e' (.tail _ listed)]
    simp [extend, appends e (.head _)]

/-- What was there before a command that throws it away does not count. -/
theorem foldl_extend_truncate (old : Bytes) (before : List Remark) {e : Remark}
    (truncates : e.append = false) {after : List Remark} (appends : ∀ e ∈ after, e.append = true) :
    (before ++ e :: after).foldl extend old = (e :: after).flatMap line := by
  rw [List.foldl_append, List.foldl_cons, foldl_extend_append _ appends]
  simp [extend, truncates]

end Remark

namespace World

/-- No command is running, and a path leads to a file that may be written to. -/
structure Reaches (w : World) (path : String) (id : NodeId) : Prop where
  idle : w.IsIdle
  named : ¬ Path.endsInSlash path
  clean : ¬ holdsNull (w.session.resolve path)
  leads : w.files.LeadsTo w.here (w.session.resolve path) id

/-- Since `origin` nothing was shown but records, and nothing has changed but files and the
status. -/
structure Silent (origin w : World) : Prop where
  here : w.here = origin.here
  session : { w.session with status := origin.session.status } = origin.session
  console : w.console = origin.console
  logs : NotedSince origin w
  out : w.terminals.out = origin.terminals.out
  err : w.terminals.err.shown = origin.terminals.err.shown ++ origin.noted w .err

namespace Silent

variable {origin w : World}

theorem refl (w : World) : Silent w w where
  here := rfl
  session := rfl
  console := rfl
  logs := .refl w
  out := rfl
  err := by simp

theorem note (silent : Silent origin w) (source : Log.Source) (message : String) :
    Silent origin (w.note .debug source message) where
  here := by simpa using silent.here
  session := by simpa using silent.session
  console := by simpa using silent.console
  logs := silent.logs.note source message
  out := by simpa using silent.out
  err := by
    have shown : (w.note .debug source message).terminals.err.shown =
        w.terminals.err.shown ++ w.recordLine ⟨.debug, source, message⟩ := w.shown_note
    rw [shown, silent.err, noted_note silent.logs.2.1, List.append_assoc]

end Silent

/-- What commands `echo` with their output in one file leave behind: the path leads to the file
`id`, which holds their lines from the last command on that threw away what it held, and nothing
but records was shown. -/
structure KeepsRemarks (w : World) (path : String) (remarks : List Remark) (id : NodeId)
    (v : World) : Prop where
  session : v.session = { w.session with status := 0 }
  idle : v.IsIdle
  out : v.terminals.out = w.terminals.out
  err : v.terminals.err.shown = w.terminals.err.shown ++ w.noted v .err
  quiet : w.HidesDebug → w.noted v .err = []
  found : v.files.find w.here (w.session.resolve path) = .ok id
  appended : (∀ e ∈ remarks, e.append = true) → v.files.contents? id =
    some ((w.files.contents? id).getD [] ++ remarks.flatMap Remark.line)
  truncated : ∀ before e after, remarks = before ++ e :: after → e.append = false →
    (∀ e' ∈ after, e'.append = true) →
    v.files.contents? id = some ((e :: after).flatMap Remark.line)

theorem note_diverted (w : World) (c : Channel) (r : Redirect) (id : NodeId) (files : FileSystem)
    (level : Log.Level) (source : Log.Source) (message : String) :
    (w.diverted c r id files).note level source message =
      (w.note level source message).diverted c r id files := by
  simp only [World.note, diverted]
  cases w.echo with
  | none => rfl
  | some echo =>
    dsimp only
    split
    · simp only [onTerminal_session]
      rfl
    · rfl

end World

namespace Act

open World

variable {w : World} {path : String} {id : NodeId} {files : FileSystem}

/-- The record of a command `echo`. -/
def echoRecord (e : Remark) : String :=
  s!"builtin {Builtin.echo.name} {Text.quoteList e.words}"

theorem openRedirects_output (command : Command) (inherits : command.stderr = none) :
    openRedirects command w = openRedirect .out command.stdout w := by
  unfold openRedirects
  rw [inherits]
  rfl

theorem execute_echo {e : Remark} {kept : Bytes} (idle : w.IsIdle)
    (opened : openRedirect .out (some (e.redirect path)) w =
      .ok none (w.diverted .out (e.redirect path) id files))
    (holds : files.contents? id = some kept) (start : e.append = true ∨ kept = []) :
    let after := w.note .debug .execution (echoRecord e)
    execute (e.command path) w = .ok 0
      { after with
        files := files.withContents id (kept ++ e.line)
        session := { after.session with status := 0 } } := by
  intro after
  let noted := (w.diverted .out (e.redirect path) id files).note .debug .execution (echoRecord e)
  let file : OpenFile :=
    { path := w.session.resolve path, node := id, append := e.append }
  have empty : w.redirects = ⟨none, none⟩ := idle
  have stands : noted.redirects = ⟨some file, none⟩ := by
    simp only [noted, note_redirects, diverted, empty]
    rfl
  have isFiles : noted.files = files := by
    simp [noted, diverted]
  -- the command says its line while the file stands in for the output
  have takes : file.TakesLine noted.files (" ".intercalate e.words)
      (files.withContents id (kept ++ e.line)) := by
    have regular : (files.contents? id).isSome := by simp [holds]
    rw [isFiles]
    refine OpenFile.writeLine_regular regular ⟨rfl, rfl, ?_, ?_⟩ rfl rfl _
    · exact (FileSystem.withContents_self holds).symm
    · exact start.imp_right fun nothing => by simp [nothing, file]
  obtain ⟨v, ran, closed, file', isOpen⟩ := writeLine_closeRedirect (w := noted) (c := .out)
    (by rw [stands]; rfl) takes
  have said : Builtin.runEcho e.words noted = .ok 0 v := by
    have parts : Builtin.runEcho e.words =
        (do (do printLine .out (" ".intercalate e.words); flush .out); return 0) := by
      simp [Builtin.runEcho]
    rw [parts, bind_apply, ran]
    rfl
  have opens : openRedirects (e.command path) w =
      .ok none (w.diverted .out (e.redirect path) id files) :=
    (openRedirects_output (e.command path) rfl).trans opened
  have done : v.closeRedirects =
      { after with files := files.withContents id (kept ++ e.line) } := by
    have noErr : v.closeRedirect .err = v := by
      have free : v.redirects.get .err = none := by
        rw [isOpen, stands]
        rfl
      simp [World.closeRedirect, free]
    have idle' : after.redirects = ⟨none, none⟩ := by simp [after, empty]
    rw [closeRedirects, noErr, closed, stands]
    simp only [noted, note_diverted, diverted, after] at idle' ⊢
    rw [idle']
    rfl
  rw [execute, executeBy_opened rfl opens]
  exact completing_closeRedirects said done

/-! ## One command after the other -/

variable {origin : World} {old : Bytes}

/-- What a command `echo` leaves behind whose file could be opened. -/
structure Wrote (origin : World) (path : String) (id : NodeId) (content : Bytes) (w : World) :
    Prop where
  reaches : w.Reaches path id
  holds : w.files.contents? id = some content
  silent : Silent origin w
  status : w.session.status = 0

theorem execute_opened {e : Remark} (idle : w.IsIdle) (named : ¬ Path.endsInSlash path)
    (clean : ¬ holdsNull (w.session.resolve path))
    (opened : openRedirect .out (some (e.redirect path)) w =
      .ok none (w.diverted .out (e.redirect path) id files))
    (leads : files.LeadsTo w.here (w.session.resolve path) id)
    (holds : files.contents? id = some (if e.append then old else [])) (silent : Silent origin w) :
    ∃ v, execute (e.command path) w = .ok 0 v ∧ Wrote origin path id (e.extend old) v ∧
      files.Grows v.files := by
  have start : e.append = true ∨ (if e.append then old else []) = [] := by
    cases e.append with
    | true => exact .inl rfl
    | false => exact .inr rfl
  have ran := execute_echo idle opened holds start
  have regular : (files.contents? id).isSome := by simp [holds]
  obtain ⟨access, data, program, file, writable⟩ := leads.writable
  have grows : files.Grows (files.withContents id (e.extend old)) := by
    rw [FileSystem.withContents_eq file]
    exact .put file _ program
  have noted := silent.note .execution (echoRecord e)
  refine ⟨_, ran, ⟨⟨?_, named, ?_, ?_⟩, ?_, ?_, rfl⟩, grows⟩
  · simpa [IsIdle] using idle
  · simpa [Session.resolve] using clean
  · have same : ∀ (s : Session) (status : Int),
        Session.resolve { s with status } path = s.resolve path := fun _ _ => rfl
    have there := FileSystem.node?_withContents file (e.extend old)
    rw [same]
    simp only [note_here, note_session]
    exact ⟨grows.find leads.found, access, _, program, there, writable⟩
  · exact FileSystem.contents?_withContents regular _
  · exact ⟨noted.here, noted.session, noted.console, noted.logs, noted.out, noted.err⟩

/-- A file that was found once can be opened again. -/
theorem openRedirect_of_reaches (reaches : w.Reaches path id)
    (holds : w.files.contents? id = some old) (append : Bool) : ∃ files,
    openRedirect .out (some ⟨path, append⟩) w = .ok none (w.diverted .out ⟨path, append⟩ id files) ∧
      files.LeadsTo w.here (w.session.resolve path) id ∧
      files.contents? id = some (if append then old else []) ∧ w.files.Grows files := by
  obtain ⟨access, data, program, file, writable⟩ := reaches.leads.writable
  have opens := openRedirect_of_leadsTo (r := ⟨path, append⟩) reaches.named reaches.clean
    reaches.leads .out
  refine ⟨w.files.prepared id append, opens, ?_⟩
  cases append with
  | true =>
    rw [FileSystem.prepared_append]
    exact ⟨reaches.leads, holds, .refl w.files⟩
  | false =>
    have same : w.files.prepared id false = w.files.put id (.file access #[] none) := by
      simp [FileSystem.prepared, file]
    have empty := FileSystem.node?_put_self (.file access #[] none)
      (FileSystem.lt_next_of_node? file)
    have grows : w.files.Grows (w.files.put id (.file access #[] none)) := .put file #[] none
    rw [same]
    exact ⟨⟨grows.find reaches.leads.found, _, _, _, empty, writable⟩,
      FileSystem.contents?_eq_some_iff.2 ⟨access, none, empty⟩, grows⟩

theorem execute_wrote {e : Remark} (wrote : Wrote origin path id old w) : ∃ v,
    execute (e.command path) w = .ok 0 v ∧ Wrote origin path id (e.extend old) v ∧
      w.files.Grows v.files := by
  obtain ⟨files, opened, leads, holds, grows⟩ :=
    openRedirect_of_reaches wrote.reaches wrote.holds e.append
  obtain ⟨v, ran, wrote', grows'⟩ := execute_opened wrote.reaches.idle wrote.reaches.named
    wrote.reaches.clean opened leads holds wrote.silent
  exact ⟨v, ran, wrote', grows.trans grows'⟩

/-- Carries out one command `echo` after the other. -/
def writeAll (path : String) (remarks : List Remark) : Act (List Int) :=
  remarks.mapM fun e => execute (e.command path)

theorem writeAll_cons {e : Remark} {rest : List Remark} {n : Int} {ns : List Int} {u v : World}
    (first : execute (e.command path) w = .ok n u) (others : writeAll path rest u = .ok ns v) :
    writeAll path (e :: rest) w = .ok (n :: ns) v := by
  unfold writeAll at others ⊢
  rw [List.mapM_cons, bind_apply, first]
  simp only [bind_apply, others, pure_apply]

theorem writeAll_wrote (remarks : List Remark) (wrote : Wrote origin path id old w) : ∃ v,
    writeAll path remarks w = .ok (List.replicate remarks.length 0) v ∧
      Wrote origin path id (remarks.foldl Remark.extend old) v ∧ w.files.Grows v.files := by
  induction remarks generalizing w old with
  | nil => exact ⟨w, rfl, wrote, .refl w.files⟩
  | cons e rest ih =>
    obtain ⟨u, ran, wrote', grows⟩ := execute_wrote (e := e) wrote
    obtain ⟨v, ran', wrote'', grows'⟩ := ih wrote'
    exact ⟨v, writeAll_cons ran ran', wrote'', grows.trans grows'⟩

/-! ## Reading the file -/

theorem read_of_wrote {content : Bytes} (wrote : Wrote origin path id content w) {access : Access}
    {data : Array UInt8} {program : Option Program}
    (file : w.files.node? id = some (.file access data program)) (readable : access.read = true) :
    w.files.read w.here (w.session.resolve path) = some (.ok content) := by
  have holds := wrote.holds
  simp only [FileSystem.contents?, file, Option.some.injEq] at holds
  simp [FileSystem.read, FileSystem.lookup, wrote.reaches.leads.found, file, readable, holds]

theorem execute_cat {content : Bytes} (idle : w.IsIdle)
    (clean : ¬ holdsNull (w.session.resolve path)) (raw : w.console.textOnly = false)
    (reads : w.files.read w.here (w.session.resolve path) = some (.ok content)) : ∃ v,
    execute { name := some "cat", arguments := [path] } w = .ok 0 v ∧
      v.terminals.out.shown = w.terminals.out.shown ++ content ∧ v.files = w.files := by
  let noted := w.note .debug .execution s!"builtin {Builtin.cat.name} {Text.quoteList [path]}"
  let said := noted.onTerminal .out fun t => (t.print content).flush
  have free : noted.redirects.get .out = none := by
    simpa [noted] using idle.get .out
  have clean' : ¬ holdsNull (noted.session.resolve path) := by simpa [noted] using clean
  have reads' : noted.files.read noted.here (noted.session.resolve path) = some (.ok content) := by
    simpa [noted] using reads
  have shows : Builtin.showFile path noted = .ok true said := by
    have printed : printBytes .out content noted = .ok () said :=
      printBytes_apply free (by simpa [noted] using raw) content
    unfold Builtin.showFile
    simp only [bind_apply, get_apply, if_neg clean', reads', printed]
    rfl
  have still : said.redirects.get .out = none := free
  have ran : Builtin.runCat [path] noted = .ok 0 (said.onTerminal .out (·.flush)) := by
    simp only [Builtin.runCat, Builtin.showFiles, bind_apply, shows, pure_apply, flush_apply still]
    rfl
  have idle' : (said.onTerminal .out (·.flush)).IsIdle := by
    simpa [IsIdle, said, noted] using idle
  have isBuiltin : Builtin.ofName? "cat" = some .cat := rfl
  have ended := (executeBy_builtin .usual [path] isBuiltin).trans (completing_apply ran idle')
  exact ⟨_, ended, by simp [said, noted, Both.get, Both.set], by simp [said, noted]⟩

/-! ## Whole histories -/

theorem Wrote.keepsRemarks {remarks : List Remark} {v : World}
    (wrote : Wrote w path id (remarks.foldl Remark.extend ((w.files.contents? id).getD [])) v) :
    w.KeepsRemarks path remarks id v where
  session := by
    have status := wrote.status
    rw [← wrote.silent.session]
    generalize v.session = s at status ⊢
    cases s
    cases status
    rfl
  idle := wrote.reaches.idle
  out := wrote.silent.out
  err := wrote.silent.err
  quiet hides := noted_of_hidden wrote.silent.logs hides .err
  found := by
    have found := wrote.reaches.leads.found
    have same : v.session.resolve path = w.session.resolve path := by
      rw [← wrote.silent.session]
      rfl
    rwa [wrote.silent.here, same] at found
  appended appends := by
    rw [wrote.holds, Remark.foldl_extend_append _ appends]
  truncated := by
    rintro before e after rfl truncates appends
    rw [wrote.holds, Remark.foldl_extend_truncate _ before truncates appends]

/-- Any number of commands `echo` that write to one file, if the first of them can open it and
finds or makes a regular file: each of them can open it and comes to 0, and what they leave in it
is what `cat` shows. -/
theorem writeAll_keepsRemarks {opened : World} {first : Remark} (rest : List Remark)
    (idle : w.IsIdle)
    (opens : openRedirect .out (some (first.redirect path)) w = .ok none opened)
    {access : Access} {data : Array UInt8} {program : Option Program}
    (regular : opened.files.lookup w.here (w.session.resolve path) =
      .ok (.file access data program)) :
    ∃ id v, writeAll path (first :: rest) w = .ok (List.replicate (rest.length + 1) 0) v ∧
      w.KeepsRemarks path (first :: rest) id v ∧
      (∀ before e after, first :: rest = before ++ e :: after → ∃ u opened',
        writeAll path before w = .ok (List.replicate before.length 0) u ∧
          openRedirect .out (some (e.redirect path)) u = .ok none opened') ∧
      (access.read = true → w.console.textOnly = false → ∃ v' content,
        v.files.contents? id = some content ∧
          execute { name := some "cat", arguments := [path] } v = .ok 0 v' ∧
          v'.terminals.out.shown = v.terminals.out.shown ++ content ∧ v'.files = v.files) := by
  have tries := openRedirect_tries w .out (some (first.redirect path))
  rw [opens] at tries
  rcases tries.of_accepted with ⟨⟨⟩, _⟩ | ⟨r, id, files, ⟨⟩, named, clean, rfl, opened⟩
  obtain ⟨id', found', there⟩ := FileSystem.find_of_lookup regular
  obtain rfl : id = id' := Except.ok.inj (opened.find.symm.trans found')
  cases opened with
  | device develops found isDevice => cases there.symm.trans isDevice
  | file develops leads holds =>
    obtain ⟨u, ran, wrote, grows⟩ := execute_opened idle named clean opens leads holds (.refl w)
    obtain ⟨v, ran', wrote', grows'⟩ := writeAll_wrote rest wrote
    refine ⟨id, v, writeAll_cons ran ran', wrote'.keepsRemarks, ?_, fun readable raw => ?_⟩
    · rintro (_ | ⟨b, before⟩) e after split
      · cases split
        exact ⟨w, _, rfl, opens⟩
      · cases split
        obtain ⟨u', ran', wrote', _⟩ := writeAll_wrote before wrote
        obtain ⟨files', opened, _⟩ := openRedirect_of_reaches wrote'.reaches wrote'.holds e.append
        exact ⟨u', _, writeAll_cons ran ran', opened⟩
    · -- the file may be read after all that as it might have been before
      obtain ⟨node, after, grown⟩ := (grows.trans grows').grown there
      cases grown with
      | file data' program' =>
        have reads := read_of_wrote wrote' after readable
        have raw' : v.console.textOnly = false := by rw [wrote'.silent.console, raw]
        obtain ⟨v', ran'', shown, files⟩ :=
          execute_cat wrote'.reaches.idle wrote'.reaches.clean raw' reads
        exact ⟨v', _, wrote'.holds, ran'', shown, files⟩

/-- What three commands `echo` leave in a file, the second of which throws away what it held. -/
theorem remarks_kept : ∃ id v,
    writeAll "old" [⟨["one"], true⟩, ⟨["two", "three"], false⟩, ⟨["four"], true⟩] oneFile =
      .ok [0, 0, 0] v ∧ v.files.find oneFile.here (oneFile.session.resolve "old") = .ok id ∧
      v.files.contents? id = some (Utf8.encode "two three\nfour\n") := by
  let first : Remark := ⟨["one"], true⟩
  let second : Remark := ⟨["two", "three"], false⟩
  let third : Remark := ⟨["four"], true⟩
  have idle : oneFile.IsIdle := rfl
  have opens : openRedirect .out (some (first.redirect "old")) oneFile =
      .ok none (oneFile.diverted .out ⟨"old", true⟩ 1 oneFile.files) := by decide +kernel
  obtain ⟨id, v, ran, keeps, _⟩ := writeAll_keepsRemarks [second, third] idle opens rfl
  have content := keeps.truncated [first] second [third] rfl rfl (by decide)
  exact ⟨id, v, ran, keeps.found, content.trans (by decide)⟩

end Act

end LineShell
