import LineShell.Proofs.OneRun.Commands
import LineShell.Proofs.ReadLoop.Transcript
import LineShell.Proofs.Session.Children

/-!
# Errors that look different

How an error looks on the standard error of the shell, and which records are shown there, has no
effect on anything else. `World.Tells` relates two runs that differ in nothing but these looks: what
was said since they began is the same list of parts, each of which is shown in the way of its world.

A command that runs a child reports nothing itself, so what is shown then is what the child wrote,
byte by byte; every other command runs no child, so all that is shown are its reports
(`execute_tells`). Records come between in both cases.

Main statements: `execute_tells` for a command and `runLine_tells` for a line.
-/

namespace LineShell

open Act Act.InStep

/-- A part of what the standard error of the shell shows. -/
inductive Said
  | report (message : String)
  | record (record : Log.Record)
  | child (bytes : Bytes)

namespace Said

def record? : Said → Option Log.Record
  | .record kept => some kept
  | _ => none

def IsRecord (said : Said) : Prop :=
  said.record?.isSome

/-- It is not the shell that reports an error. -/
def IsNoReport : Said → Prop
  | .report _ => False
  | _ => True

/-- It is not a child that writes. -/
def IsNoChild : Said → Prop
  | .child _ => False
  | _ => True

theorem IsRecord.isNoReport {said : Said} (noted : said.IsRecord) : said.IsNoReport := by
  cases said with
  | report message => cases noted
  | record kept => trivial
  | child bytes => trivial

theorem IsRecord.isNoChild {said : Said} (noted : said.IsRecord) : said.IsNoChild := by
  cases said with
  | report message => trivial
  | record kept => trivial
  | child bytes => cases noted

end Said

namespace World

/-- How a part of what is said looks. -/
def look (w : World) : Said → Bytes
  | .report message => w.errorLine message
  | .record record => w.recordLine record
  | .child bytes => bytes

/-- The worlds are the same but for the standard error and the looks of what is shown there. -/
structure SameButErrors (v w : World) : Prop extends v.SharesState w where
  out : v.terminals.out = w.terminals.out
  records : v.records = w.records

/-- Since the two origins the same was said in both worlds, and all else is the same. -/
structure Tells (origin origin' : World) (said : List Said) (w v : World) : Prop
    extends v.SameButErrors w where
  console : w.console = origin.console
  console' : v.console = origin'.console
  echo : w.echo = origin.echo
  echo' : v.echo = origin'.echo
  noted : w.records = (said.filterMap Said.record?).reverse ++ origin.records
  shown : w.terminals.err.shown = origin.terminals.err.shown ++ said.flatMap origin.look
  shown' : v.terminals.err.shown = origin'.terminals.err.shown ++ said.flatMap origin'.look

/-- Some parts of an allowed kind were said. -/
def Telling (origin origin' : World) (allowed : Said → Prop) (w v : World) : Prop :=
  ∃ said, (∀ part ∈ said, allowed part) ∧ Tells origin origin' said w v

/-- Besides, nothing waits in the buffers of the standard error. -/
def TellingCalmly (origin origin' : World) (allowed : Said → Prop) (w v : World) : Prop :=
  Telling origin origin' allowed w v ∧
    (w.terminals.get .err).pending = [] ∧ (v.terminals.get .err).pending = []

variable {origin origin' w v : World} {said : List Said} {allowed allowed' : Said → Prop}

theorem Telling.mono (telling : Telling origin origin' allowed w v)
    (weaker : ∀ part, allowed part → allowed' part) : Telling origin origin' allowed' w v := by
  obtain ⟨said, kinds, tells⟩ := telling
  exact ⟨said, fun part listed => weaker part (kinds part listed), tells⟩

namespace Tells

theorem note (tells : Tells origin origin' said w v) (level : Log.Level) (source : Log.Source)
    (message : String) : Tells origin origin' (said ++ [.record ⟨level, source, message⟩])
      (w.note level source message) (v.note level source message) where
  session := by simp [tells.session]
  files := by simp [tells.files]
  here := by simp [tells.here]
  redirects := by simp [tells.redirects]
  out := by simp [tells.out]
  records := by simp [tells.records]
  console := by simp [tells.console]
  console' := by simp [tells.console']
  echo := by simp [tells.echo]
  echo' := by simp [tells.echo']
  noted := by simp [tells.noted, Said.record?]
  shown := by
    have grown : ((w.note level source message).terminals.get .err).shown =
        (w.terminals.get .err).shown ++ w.recordLine ⟨level, source, message⟩ := shown_note w
    simp only [Both.get, tells.shown, recordLine_eq tells.echo] at grown
    simp [grown, look]
  shown' := by
    have grown : ((v.note level source message).terminals.get .err).shown =
        (v.terminals.get .err).shown ++ v.recordLine ⟨level, source, message⟩ := shown_note v
    simp only [Both.get, tells.shown', recordLine_eq tells.echo'] at grown
    simp [grown, look]

/-- More is said on the standard error. -/
theorem onErrors {f g : Terminal → Terminal} (tells : Tells origin origin' said w v) (part : Said)
    (plain : part.record? = none)
    (shown : (f (w.terminals.get .err)).shown =
      (w.terminals.get .err).shown ++ origin.look part)
    (shown' : (g (v.terminals.get .err)).shown =
      (v.terminals.get .err).shown ++ origin'.look part) :
    Tells origin origin' (said ++ [part]) (w.onTerminal .err f) (v.onTerminal .err g) where
  session := tells.session
  files := tells.files
  here := tells.here
  redirects := tells.redirects
  out := tells.out
  records := tells.records
  console := tells.console
  console' := tells.console'
  echo := tells.echo
  echo' := tells.echo'
  noted := by simp [tells.noted, plain]
  shown := by
    simp only [Both.get, tells.shown] at shown
    simp [Both.set, Both.get, shown]
  shown' := by
    simp only [Both.get, tells.shown'] at shown'
    simp [Both.set, Both.get, shown']

theorem onOutput (tells : Tells origin origin' said w v) (f : Terminal → Terminal) :
    Tells origin origin' said (w.onTerminal .out f) (v.onTerminal .out f) :=
  { tells with out := congrArg f tells.out }

theorem flushTerminals (tells : Tells origin origin' said w v) :
    Tells origin origin' said w.flushTerminals v.flushTerminals :=
  { tells with
    out := congrArg Terminal.flush tells.out
    shown := (Terminal.shown_flush _).trans tells.shown
    shown' := (Terminal.shown_flush _).trans tells.shown' }

end Tells

theorem Telling.note (telling : Telling origin origin' allowed w v)
    (records : ∀ part : Said, part.IsRecord → allowed part) (level : Log.Level)
    (source : Log.Source) (message : String) :
    Telling origin origin' allowed (w.note level source message) (v.note level source message) := by
  obtain ⟨said, kinds, tells⟩ := telling
  refine ⟨_, fun part listed => ?_, tells.note level source message⟩
  rcases List.mem_append.1 listed with before | new
  · exact kinds part before
  · rw [List.mem_singleton.1 new]
    exact records _ rfl

/-- A part more is said. -/
theorem Telling.onErrors {f g : Terminal → Terminal} (telling : Telling origin origin' allowed w v)
    (part : Said) (kind : allowed part) (plain : part.record? = none)
    (shown : (f (w.terminals.get .err)).shown =
      (w.terminals.get .err).shown ++ origin.look part)
    (shown' : (g (v.terminals.get .err)).shown =
      (v.terminals.get .err).shown ++ origin'.look part) :
    Telling origin origin' allowed (w.onTerminal .err f) (v.onTerminal .err g) := by
  obtain ⟨said, kinds, tells⟩ := telling
  refine ⟨_, fun other listed => ?_, tells.onErrors part plain shown shown'⟩
  rcases List.mem_append.1 listed with before | new
  · exact kinds other before
  · rwa [List.mem_singleton.1 new]

section
variable (raw : origin'.console.textOnly = origin.console.textOnly)
  (records : ∀ part : Said, part.IsRecord → allowed part)
include raw records

theorem Telling.speaking : Speaking (Telling origin origin' allowed) where
  shares := by
    rintro w v ⟨said, _, tells⟩
    exact tells.toSharesState
  textOnly := by
    rintro w v ⟨said, _, tells⟩
    rw [tells.console, tells.console', raw]
  change := by
    rintro w v files redirects ⟨said, kinds, tells⟩
    exact ⟨said, kinds, { tells with files := rfl, redirects := rfl }⟩
  note level source message telling := telling.note records level source message
  remember := by
    rintro w v f ⟨said, kinds, tells⟩
    exact ⟨said, kinds, { tells with session := congrArg f tells.session }⟩
  print := by
    rintro w v text ⟨said, kinds, tells⟩
    exact ⟨said, kinds, tells.onOutput _⟩
  flush := by
    rintro w v ⟨said, kinds, tells⟩
    exact ⟨said, kinds, tells.onOutput _⟩
  pass := by
    rintro w v bytes ⟨said, kinds, tells⟩
    exact ⟨said, kinds, tells.onOutput _⟩

/-- What a child writes comes after all that was said before. -/
theorem TellingCalmly.hosting (children : ∀ bytes, allowed (.child bytes)) :
    Hosting (TellingCalmly origin origin' allowed) where
  shares calm := (Telling.speaking raw records).shares calm.1
  textOnly calm := (Telling.speaking raw records).textOnly calm.1
  change files redirects calm :=
    ⟨(Telling.speaking raw records).change files redirects calm.1, calm.2⟩
  note level source message calm :=
    ⟨calm.1.note records level source message, pending_note calm.2.1, pending_note calm.2.2⟩
  write := by
    rintro w v c bytes ⟨telling, waits, waits'⟩
    cases c with
    | out =>
      obtain ⟨said, kinds, tells⟩ := telling
      exact ⟨⟨said, kinds, tells.onOutput _⟩, waits, waits'⟩
    | err =>
      refine ⟨telling.onErrors (.child bytes) (children bytes) rfl ?_ ?_, waits, waits'⟩
      · exact Terminal.shown_write waits bytes
      · exact Terminal.shown_write waits' bytes

/-- An error is reported in both worlds, in the way of each. -/
theorem Telling.report_respects (reports : ∀ message, allowed (.report message))
    (message : String) : Respects (Telling origin origin' allowed) (report message) := by
  apply (Telling.speaking raw records).report_respects
  intro w v message telling _
  obtain ⟨_, _, tells⟩ := id telling
  have look : w.errorLine message = origin.errorLine message := by
    simp only [errorLine, tells.console]
  have look' : v.errorLine message = origin'.errorLine message := by
    simp only [errorLine, tells.console']
  apply telling.onErrors (.report message) (reports message) rfl
  · simp [World.look, look]
  · simp [World.look, look']

end

/-! ## While no child writes -/

theorem Telling.alone (quiet : Telling origin origin' Said.IsRecord w v) :
    Telling origin origin' Said.IsNoChild w v :=
  quiet.mono fun _ => Said.IsRecord.isNoChild

section
variable (raw : origin'.console.textOnly = origin.console.textOnly)
include raw

theorem Telling.speakingAlone : Speaking (Telling origin origin' Said.IsNoChild) :=
  Telling.speaking raw fun _ => Said.IsRecord.isNoChild

theorem Telling.reportsAlone (message : String) :
    Respects (Telling origin origin' Said.IsNoChild) (report message) :=
  Telling.report_respects raw (fun _ => Said.IsRecord.isNoChild) (fun _ => trivial) message

end

/-! ## Commands -/

theorem Telling.beforeStart (quiet : Telling origin origin' Said.IsRecord w v)
    (raw : origin'.console.textOnly = origin.console.textOnly) (name path : String)
    (arguments : List String) : TellingCalmly origin origin' Said.IsRecord
      (w.beforeStart name path arguments) (v.beforeStart name path arguments) := by
  have same := (Telling.speaking raw fun _ => id).candidates_eq name quiet
  unfold World.beforeStart afterSearch
  rw [same]
  obtain ⟨said, kinds, tells⟩ := quiet.note (fun _ => id) .debug .search _
  have flushed := tells.flushTerminals
  exact ⟨Telling.note ⟨said, kinds, flushed⟩ (fun _ => id) _ _ _, pending_note rfl, pending_note rfl⟩

/-- The work of a command, once its files are open, comes to running a child. -/
def LaunchesChild (w : World) (name : String) (arguments : List String) : Prop :=
  ∃ path program child, Builtin.ofName? name = none ∧ (w.candidates name).head? = some path ∧
    let before := w.beforeStart name path arguments
    let file := Path.join w.session.cwd path
    handoverFault? file (name :: arguments) before.session = none ∧
    prepareChild before file arguments = .ok (program, child)

theorem exists_runsChild_iff {c : Command} {name : String} (named : c.name = some name) :
    (∃ ending, w.RunsChild c ending) ↔ ∃ opened, openRedirects c w = .ok none opened ∧
      opened.LaunchesChild name c.arguments := by
  constructor
  · rintro ⟨_, name', path, opened, program, child, named', free, opens, found, accepted, prepared, _⟩
    obtain rfl : name' = name := Option.some.inj (named'.symm.trans named)
    exact ⟨opened, opens, path, program, child, free, found, accepted, prepared⟩
  · rintro ⟨opened, opens, path, program, child, free, found, accepted, prepared⟩
    exact ⟨_, name, path, opened, program, child, named, free, opens, found, accepted, prepared, rfl⟩

end World

namespace Act

variable {origin origin' w v : World} {name : String}

/-- Two outcomes in which the same was said: no error was reported if `child` holds, and else no
child has written. -/
def Tell (origin origin' : World) {α : Type} (child : Prop)
    (r r' : EStateM.Result Fault World α) : Prop :=
  child ∧ SameOutcome (World.Telling origin origin' Said.IsNoReport) r r' ∨
    ¬ child ∧ SameOutcome (World.Telling origin origin' Said.IsNoChild) r r'

variable (raw : origin'.console.textOnly = origin.console.textOnly)
include raw

/-- What is started runs, or it is refused. -/
theorem start_tells (calm : World.TellingCalmly origin origin' Said.IsRecord w v)
    (name file : String) (arguments : List String) :
    Tell origin origin'
      (handoverFault? file (name :: arguments) w.session = none ∧
        ∃ program child, prepareChild w file arguments = .ok (program, child))
      ((do let outcome ← start name file arguments; launchStatus name outcome) w)
      ((do let outcome ← start name file arguments; launchStatus name outcome) v) := by
  have sharing := (World.Telling.speaking raw fun _ => id).toSharing
  have session := (sharing.shares calm.1).session
  have prepared := sharing.prepareChild_eq file arguments calm.1
  have quiet := calm.1.alone
  have reported := World.Telling.reportsAlone raw
  cases accepted : handoverFault? file (name :: arguments) w.session with
  | some fault =>
    refine .inr ⟨by simp, ?_⟩
    simp only [bind_apply, start_apply, session, accepted]
    exact .error fault quiet
  | none =>
    cases found : prepareChild w file arguments with
    | error e =>
      refine .inr ⟨by simp, ?_⟩
      simp only [bind_apply, start_apply, session, prepared, accepted, found]
      exact bind (reported _) (fun _ => InStep.pure _) quiet
    | ok started =>
      obtain ⟨program, child⟩ := started
      refine .inl ⟨⟨rfl, program, child, rfl⟩, ?_⟩
      have hosting := World.TellingCalmly.hosting raw (fun _ => Said.IsRecord.isNoReport)
        fun _ => trivial
      have calm' : World.TellingCalmly origin origin' Said.IsNoReport w v :=
        ⟨calm.1.mono fun _ => Said.IsRecord.isNoReport, calm.2⟩
      have ran : start name file arguments w = .ok (.ok (child.run program w).1.status)
          ((child.run program w).2.note .debug .execution
            s!"{name} exited with {(child.run program w).1.status}") := by
        rw [start_apply, accepted, found]
      have both := hosting.start_respects name file arguments calm'
      rw [ran] at both
      obtain ⟨after, ran', ended⟩ := both.of_ok
      simp only [bind_apply, ran, ran', launchStatus, pure_apply]
      exact .ok _ ended.1

theorem dispatch_tells (quiet : World.Telling origin origin' Said.IsRecord w v)
    (arguments : List String) : Tell origin origin' (w.LaunchesChild name arguments)
      (dispatch .usual name arguments w) (dispatch .usual name arguments v) := by
  have sharing := (World.Telling.speaking raw fun _ => id).toSharing
  have shares := sharing.shares quiet
  have noted := quiet.alone
  have speaking := World.Telling.speakingAlone raw
  have reported := World.Telling.reportsAlone raw
  unfold dispatch
  cases builtin : Builtin.ofName? name with
  | some b =>
    refine .inr ⟨?_, ?_⟩
    · rintro ⟨_, _, _, free, _⟩
      rw [builtin] at free
      cases free
    · simp only [bind_apply, note_apply]
      exact speaking.run_respects reported b arguments (speaking.note _ _ _ noted)
  | none =>
    simp only [bind_apply, findProgram_apply, sharing.candidates_eq name quiet]
    cases found : (w.candidates name).head? with
    | none =>
      refine .inr ⟨?_, ?_⟩
      · rintro ⟨_, _, _, _, found', _⟩
        rw [found] at found'
        cases found'
      · have searched : World.Telling origin origin' Said.IsNoChild (w.afterSearch name)
            (v.afterSearch name) := by
          unfold World.afterSearch
          rw [sharing.candidates_eq name quiet]
          exact speaking.note _ _ _ noted
        exact bind (reported _) (fun _ => InStep.pure _) searched
    | some path =>
      have started := start_tells raw (quiet.beforeStart raw name path arguments) name
        (Path.join w.session.cwd path) arguments
      have launches : w.LaunchesChild name arguments ↔
          handoverFault? (Path.join w.session.cwd path) (name :: arguments)
            (w.beforeStart name path arguments).session = none ∧
          ∃ program child, prepareChild (w.beforeStart name path arguments)
            (Path.join w.session.cwd path) arguments = .ok (program, child) := by
        constructor
        · rintro ⟨path', program, child, _, found', accepted, prepared⟩
          obtain rfl : path = path' := Option.some.inj (found.symm.trans found')
          exact ⟨accepted, program, child, prepared⟩
        · rintro ⟨accepted, program, child, prepared⟩
          exact ⟨path, program, child, builtin, found, accepted, prepared⟩
      have reached : ∀ u : World, u.session = w.session →
          (do let outcome ← launch start name path arguments; launchStatus name outcome)
              (u.afterSearch name) =
            (do let outcome ← start name (Path.join w.session.cwd path) arguments
                launchStatus name outcome) (u.beforeStart name path arguments) := by
        intro u same
        rw [bind_apply, bind_apply, launch_apply, same]
      rw [launches]
      change Tell origin origin' _
        ((do let outcome ← launch start name path arguments; launchStatus name outcome)
          (w.afterSearch name))
        ((do let outcome ← launch start name path arguments; launchStatus name outcome)
          (v.afterSearch name))
      rw [reached w rfl, reached v shares.session]
      exact started

/-- The errors of a command: it runs a child and reports nothing, or it runs none. -/
theorem perform_tells (quiet : World.Telling origin origin' Said.IsRecord w v) {c : Command}
    (named : c.name = some name) : Tell origin origin' (∃ ending, w.RunsChild c ending)
      (perform .usual name c w) (perform .usual name c v) := by
  have reported := World.Telling.reportsAlone raw
  have opened := (World.Telling.speaking raw fun _ => id).openRedirects_respects c quiet
  rw [World.exists_runsChild_iff named]
  simp only [perform, bind_apply]
  generalize openRedirects c w = result at opened ⊢
  generalize openRedirects c v = result' at opened ⊢
  cases opened with
  | error fault quiet =>
    refine .inr ⟨by simp, ?_⟩
    exact .error fault quiet.alone
  | ok refusal quiet =>
    cases refusal with
    | some refusal =>
      refine .inr ⟨by simp, ?_⟩
      exact bind (reported _) (fun _ => InStep.pure _) quiet.alone
    | none => simpa using dispatch_tells raw quiet c.arguments

theorem execute_tells (quiet : World.Telling origin origin' Said.IsRecord w v) (c : Command) :
    Tell origin origin' (∃ ending, w.RunsChild c ending) (execute c w) (execute c v) := by
  have completed : ∀ {allowed : Said → Prop} {name}, (∀ part : Said, part.IsRecord → allowed part) →
      SameOutcome (World.Telling origin origin' allowed) (perform .usual name c w)
        (perform .usual name c v) →
      SameOutcome (World.Telling origin origin' allowed)
        (completing (perform .usual name c) w) (completing (perform .usual name c) v) :=
    fun records ended => (World.Telling.speaking raw records).completing_sameOutcome ended
  unfold execute executeBy
  cases named : c.name with
  | none =>
    refine .inr ⟨?_, ?_⟩
    · rintro ⟨_, name, _, _, _, _, named', _⟩
      rw [named] at named'
      cases named'
    · have noted := quiet.alone
      have shares := (World.Telling.speakingAlone raw).shares noted
      simp only [bind_apply, get_apply, pure_apply, shares.session]
      exact .ok _ noted
  | some name =>
    rcases perform_tells raw quiet named with ⟨child, ended⟩ | ⟨none, ended⟩
    · exact .inl ⟨child, completed (fun _ => Said.IsRecord.isNoReport) ended⟩
    · exact .inr ⟨none, completed (fun _ => Said.IsRecord.isNoChild) ended⟩

end Act

/-! ## Lines -/

/-- A line comes to running a child: it holds a command that does. -/
def World.LineRunsChild (w : World) (line : String) : Prop :=
  ¬ Text.isVoid line ∧ ∃ c ending, Command.meantBy line = .ok c ∧
    ((Act.parseLine line).run w).RunsChild c ending

namespace Act

variable {origin origin' w v : World}

/-- The errors of a line: it runs a child and reports nothing, or it runs none. -/
theorem runLine_tells (raw : origin'.console.textOnly = origin.console.textOnly)
    (quiet : World.Telling origin origin' Said.IsRecord w v) (line : String) :
    Tell origin origin' (w.LineRunsChild line) (runLine line w) (runLine line v) := by
  have noted := quiet.alone
  have speaking := World.Telling.speakingAlone raw
  have reported := World.Telling.reportsAlone raw
  by_cases void : Text.isVoid line
  · refine .inr ⟨fun runs => runs.1 void, ?_⟩
    simp only [runLine, if_pos void]
    exact .ok () noted
  obtain ⟨read, parsed, _⟩ := parseLine_apply line w
  change parseLine line w = .ok (Command.meantBy line) read at parsed
  have both := (World.Telling.speaking raw fun _ => id).parseLine_respects line quiet
  rw [parsed] at both
  obtain ⟨read', parsed', quiet'⟩ := both.of_ok
  have reads : (parseLine line).run w = read := by simp [Act.run, parsed]
  simp only [runLine, if_neg void, bind_apply, parsed, parsed', World.LineRunsChild, reads]
  cases meant : Command.meantBy line with
  | error e =>
    refine .inr ⟨by simp, ?_⟩
    exact bind (reported _) (fun _ => speaking.remember_respects _)
      quiet'.alone
  | ok c =>
    dsimp only [runCommand]
    rcases execute_tells raw quiet' c with ⟨⟨ending, runs⟩, ended⟩ | ⟨none, ended⟩
    · -- a command that runs a child comes to an end, so there is no fault to be reported
      obtain ⟨after, ran⟩ := execute_runsChild runs
      rw [ran] at ended
      obtain ⟨after', ran', ended⟩ := ended.of_ok
      refine .inl ⟨⟨void, c, ending, rfl, runs⟩, ?_⟩
      simp only [tryCatch_apply, discard_apply, ran, ran']
      exact .ok () ended
    · refine .inr ⟨?_, ?_⟩
      · rintro ⟨_, c', ending, same, runs⟩
        cases same
        exact none ⟨ending, runs⟩
      · simp only [tryCatch_apply, discard_apply]
        generalize execute c read = result at ended ⊢
        generalize execute c read' = result' at ended ⊢
        cases ended with
        | ok _ told => exact .ok () told
        | error fault told => exact speaking.reportFault_respects reported line fault told

end Act

namespace World

variable {origin origin' w v : World} {said : List Said}

theorem Tells.refl (w v : World) (same : v.SameButErrors w) : Tells w v [] w v where
  toSameButErrors := same
  console := rfl
  console' := rfl
  echo := rfl
  echo' := rfl
  noted := rfl
  shown := (List.append_nil _).symm
  shown' := (List.append_nil _).symm

theorem look_congr (console : v.console = w.console) (echo : v.echo = w.echo) :
    v.look = w.look := by
  funext part
  cases part with
  | report message => simp only [look, errorLine, console]
  | record kept => simp only [look, recordLine, echo]
  | child bytes => rfl

theorem Tells.trans {u u' : World} {more : List Said} (first : Tells origin origin' said u u')
    (second : Tells u u' more w v) : Tells origin origin' (said ++ more) w v where
  toSameButErrors := second.toSameButErrors
  console := second.console.trans first.console
  console' := second.console'.trans first.console'
  echo := second.echo.trans first.echo
  echo' := second.echo'.trans first.echo'
  noted := by simp [second.noted, first.noted]
  shown := by
    rw [second.shown, first.shown, look_congr first.console first.echo, List.flatMap_append,
      List.append_assoc]
  shown' := by
    rw [second.shown', first.shown', look_congr first.console' first.echo', List.flatMap_append,
      List.append_assoc]

/-- What a line says is told afresh. -/
theorem Tells.next (tells : Tells origin origin' said w v)
    (raw : origin'.console.textOnly = origin.console.textOnly) (line : String) :
    Act.Tell w v (w.LineRunsChild line) (Act.runLine line w) (Act.runLine line v) := by
  have raw' : v.console.textOnly = w.console.textOnly := by rw [tells.console, tells.console', raw]
  have quiet : Telling w v Said.IsRecord w v := ⟨[], by simp, .refl w v tells.toSameButErrors⟩
  exact Act.runLine_tells raw' quiet line

/-- One line more: what it says is told from what was said before, and its kind is known. -/
theorem Tells.after (tells : Tells origin origin' said w v)
    (raw : origin'.console.textOnly = origin.console.textOnly) (line : String) : ∃ more,
      Tells w v more (w.after line) (v.after line) ∧
      (w.LineRunsChild line → ∀ part ∈ more, part.IsNoReport) ∧
      (¬ w.LineRunsChild line → ∀ part ∈ more, part.IsNoChild) := by
  rcases tells.next raw line with ⟨child, ended⟩ | ⟨none, ended⟩
  · obtain ⟨more, kinds, tells'⟩ := ended.run
    exact ⟨more, tells', fun _ => kinds, fun none => absurd child none⟩
  · obtain ⟨more, kinds, tells'⟩ := ended.run
    exact ⟨more, tells', fun child => absurd child none, fun _ => kinds⟩

/-- After any lines the same was said in both worlds. -/
theorem Tells.runLines (tells : Tells origin origin' said w v)
    (raw : origin'.console.textOnly = origin.console.textOnly) (lines : List String) : ∃ more,
      Tells origin origin' (said ++ more) (w.runLines lines) (v.runLines lines) := by
  induction lines generalizing w v said with
  | nil => exact ⟨[], by rwa [List.append_nil]⟩
  | cons line lines ih =>
    obtain ⟨first, tells', _⟩ := tells.after raw line
    obtain ⟨more, ended⟩ := ih (tells.trans tells')
    exact ⟨first ++ more, by rwa [← List.append_assoc]⟩

/-! ## Colors -/

/-- The world with errors highlighted or not, where they are shown on a terminal. -/
def colored (w : World) (colors : Bool) : World :=
  { w with console := { w.console with colors } }

end World

/-- How a part of what is said looks, where errors and records look in their ways. -/
def Said.bytes (error : String → String) (noted : Log.Record → Bytes) : Said → Bytes
  | .report message => Utf8.encode (error message)
  | .record kept => noted kept
  | .child written => written

namespace World

/-- An error as it is. -/
def plainError (message : String) : String :=
  message ++ "\n"

/-- An error between the sequences that turn the red color on and off. -/
def redError (message : String) : String :=
  "\x1b[91m" ++ message ++ "\x1b[0m" ++ "\n"

theorem look_colored (w : World) (colors : Bool) :
    (w.colored colors).look =
      Said.bytes (if colors && w.console.isTerminal then redError else plainError)
        w.recordLine := by
  funext part
  cases part with
  | report message =>
    cases colors <;> cases terminal : w.console.isTerminal <;>
      simp [look, errorLine, colored, terminal, Highlight.highlight, Highlight.start,
        Highlight.reset, Said.bytes, redError, plainError]
  | record kept => rfl
  | child written => rfl

/-- Colors are decoration: after any lines the worlds are the same but for the standard error, and
on it the same was said. Off a terminal it is shown in the same way. On one each error is
highlighted and all else is shown as it is without colors. What the next line says is known by kind:
what a child wrote and records, if the line runs one, and else errors and records. -/
theorem runLines_colored (w : World) (lines : List String) :
    let plain := (w.colored false).runLines lines
    let red := (w.colored true).runLines lines
    let error := if w.console.isTerminal then redError else plainError
    red.SameButErrors plain ∧
    (w.console.isTerminal = false → red.terminals.err.shown = plain.terminals.err.shown) ∧
    (∃ said : List Said,
      plain.records = (said.filterMap Said.record?).reverse ++ w.records ∧
      plain.terminals.err.shown =
        w.terminals.err.shown ++ said.flatMap (Said.bytes plainError w.recordLine) ∧
      red.terminals.err.shown =
        w.terminals.err.shown ++ said.flatMap (Said.bytes error w.recordLine)) ∧
    ∀ line, ∃ said : List Said,
      (plain.after line).records = (said.filterMap Said.record?).reverse ++ plain.records ∧
      (plain.after line).terminals.err.shown =
        plain.terminals.err.shown ++ said.flatMap (Said.bytes plainError w.recordLine) ∧
      (red.after line).terminals.err.shown =
        red.terminals.err.shown ++ said.flatMap (Said.bytes error w.recordLine) ∧
      (plain.LineRunsChild line → ∀ part ∈ said, part.IsNoReport) ∧
      (¬ plain.LineRunsChild line → ∀ part ∈ said, part.IsNoChild) := by
  intro plain red error
  have look : (w.colored false).look = Said.bytes plainError w.recordLine := w.look_colored false
  have look' : (w.colored true).look = Said.bytes error w.recordLine := w.look_colored true
  have start : Tells (w.colored false) (w.colored true) [] (w.colored false) (w.colored true) :=
    .refl _ _ ⟨⟨rfl, rfl, rfl, rfl⟩, rfl, rfl⟩
  obtain ⟨said, tells⟩ := start.runLines rfl lines
  rw [List.nil_append] at tells
  have shown := tells.shown
  have shown' := tells.shown'
  rw [look] at shown
  rw [look'] at shown'
  refine ⟨tells.toSameButErrors, fun file => ?_, ⟨said, tells.noted, shown, shown'⟩, fun line => ?_⟩
  · have same : error = plainError := by simp [error, file]
    rw [shown, shown', same]
    rfl
  · obtain ⟨more, next, child, none⟩ := tells.after rfl line
    have shown := next.shown
    have shown' := next.shown'
    rw [look_congr tells.console tells.echo, look] at shown
    rw [look_congr tells.console' tells.echo', look'] at shown'
    exact ⟨more, next.noted, shown, shown', child, none⟩

end World

end LineShell
