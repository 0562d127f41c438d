import LineShell.Proofs.OneRun.Streams

/-!
# How a line changes the session

Only two builtins change the session, `cd` and `exit`, and only a status is kept besides.
`Command.Moves` says what the work of a command can do to the session, and `Session.Moves` what
the work on a line can do to it.

Main statements: a command and a line take no other steps (`perform_takes`,
`runLine_takes`), and neither does anything else that a builtin or a launch does
(`Builtin.run_takes`, `launch_takes`).
-/

namespace LineShell

open Relation (ReflTransGen)
open Act (Takes state)

/-- What a line asks for. -/
def Command.meantBy (line : String) : Except ParseError Command :=
  (ofLine line).map meant

/-- What the work of a command can do to the session. -/
inductive Command.Moves (c : Command) : Session → Session → Prop
  | goes {s : Session} (named : c.name = some "cd") (path : String) :
      Moves c s { s with cwd := s.resolve path }
  | stops {s : Session} (named : c.name = some "exit") (few : c.arguments.length ≤ 1) (n : Int) :
      Moves c s { s with exit := some (n % 256) }

/-- What the work on a line can do to the session, which is the work of its command and the
keeping of a status. -/
inductive Session.Moves (parsed : Except ParseError Command) : Session → Session → Prop
  | works {c : Command} {s t : Session} (reads : parsed = .ok c) (move : c.Moves s t) :
      Moves parsed s t
  | keeps {s : Session} (status : Int) : Moves parsed s { s with status }

variable {moves : Session → Session → Prop}

namespace Act

theorem remember_takes {f : Session → Session} (move : ∀ s, moves s (f s)) :
    Takes (World.Step moves) (remember f) :=
  Takes.modify fun w => .single (.moved (move w.session))

theorem findProgram_takes (name : String) : Takes (World.Step moves) (findProgram name) := by
  apply Takes.bind .get
  intro w
  exact Takes.bind (note_takes .debug .search _) fun _ => .pure _

end Act

/-! ## Builtins -/

namespace Builtin

open Act

theorem runEcho_takes (arguments : List String) :
    Takes (World.Step moves) (runEcho arguments) := by
  apply Takes.bind (printLine_takes .out _)
  intro _
  exact Takes.bind (flush_takes .out) fun _ => .pure 0

theorem runPwd_takes : Takes (World.Step moves) runPwd := by
  apply Takes.bind .get
  intro w
  apply Takes.bind (printLine_takes .out _)
  intro _
  exact Takes.bind (flush_takes .out) fun _ => .pure 0

theorem showFile_takes (name : String) : Takes (World.Step moves) (showFile name) := by
  apply Takes.bind .get
  intro w
  dsimp only
  split
  · exact .throw Fault.nullByte
  · cases w.files.read w.here (w.session.resolve name) with
    | none => exact .throw Fault.endless
    | some outcome =>
      cases outcome with
      | ok bytes => exact Takes.bind (printBytes_takes .out bytes) fun _ => .pure true
      | error e => exact Takes.bind (report_takes _) fun _ => .pure false

theorem showFiles_takes (names : List String) : Takes (World.Step moves) (showFiles names) := by
  induction names with
  | nil => exact .pure true
  | cons name names ih =>
    apply Takes.bind (showFile_takes name)
    intro complete
    exact Takes.bind ih fun others => .pure _

theorem runCat_takes (names : List String) : Takes (World.Step moves) (runCat names) := by
  apply Takes.bind (showFiles_takes names)
  intro complete
  exact Takes.bind (flush_takes .out) fun _ => .pure _

theorem programsOf_takes (everything : Bool) (name : String) :
    Takes (World.Step moves) (programsOf everything name) := by
  unfold programsOf
  cases everything with
  | true => exact Takes.bind .get fun w => .pure _
  | false => exact Takes.bind (findProgram_takes name) fun found => .pure _

theorem meanings_takes (everything : Bool) (name : String) :
    Takes (World.Step moves) (meanings everything name) := by
  unfold meanings
  extract_lets builtin
  split
  · exact Takes.bind (programsOf_takes everything name) fun programs => .pure _
  · exact .pure builtin

theorem printLines_takes (lines : List String) : Takes (World.Step moves) (printLines lines) := by
  induction lines with
  | nil => exact .pure ()
  | cons line lines ih => exact Takes.bind (printLine_takes .out line) fun _ => ih

theorem describeName_takes (everything : Bool) (name : String) :
    Takes (World.Step moves) (describeName everything name) := by
  apply Takes.bind (meanings_takes everything name)
  intro lines
  apply Takes.bind (printLines_takes lines)
  intro _
  split
  · exact Takes.bind (report_takes _) fun _ => .pure false
  · exact .pure true

theorem describeNames_takes (everything : Bool) (names : List String) :
    Takes (World.Step moves) (describeNames everything names) := by
  induction names with
  | nil => exact .pure true
  | cons name names ih =>
    apply Takes.bind (describeName_takes everything name)
    intro found
    exact Takes.bind ih fun others => .pure _

theorem runType_takes (arguments : List String) :
    Takes (World.Step moves) (runType arguments) := by
  unfold runType
  extract_lets names
  split
  · exact Takes.bind (report_takes _) fun _ => .pure 2
  · apply Takes.bind (describeNames_takes _ names)
    intro found
    exact Takes.bind (flush_takes .out) fun _ => .pure _

theorem fail_takes (reason : String) : Takes (World.Step moves) (runCd.fail reason) :=
  Takes.bind (report_takes _) fun _ => .pure 1

theorem stop_takes (stops : ∀ (s : Session) (n : Int), moves s { s with exit := some (n % 256) })
    (n : Int) : Takes (World.Step moves) (runExit.stop n) :=
  Takes.bind (remember_takes fun s => stops s n) fun _ => .pure _

/-- With too many arguments `exit` stops nothing. -/
theorem runExit_takes {arguments : List String}
    (stops : arguments.length ≤ 1 →
      ∀ (s : Session) (n : Int), moves s { s with exit := some (n % 256) }) :
    Takes (World.Step moves) (runExit arguments) := by
  unfold runExit
  match arguments with
  | [] => exact stop_takes (stops (Nat.zero_le 1)) 0
  | [argument] =>
    dsimp only
    cases Text.integer? argument with
    | some n => exact stop_takes (stops (Nat.le_refl 1)) n
    | none => exact Takes.bind (report_takes _) fun _ => stop_takes (stops (Nat.le_refl 1)) 2
  | _ :: _ :: _ => exact Takes.bind (report_takes _) fun _ => .pure 1

theorem go_takes (goes : ∀ (s : Session) (path : String), moves s { s with cwd := s.resolve path })
    (target : String) : Takes (World.Step moves) (runCd.go target) := by
  intro w
  unfold runCd.go
  simp only [bind_apply, get_apply]
  cases expandHome w.session target with
  | none => exact fail_takes _ w
  | some path =>
    dsimp only
    cases directoryError? w (w.session.resolve path) with
    | some e => exact fail_takes _ w
    | none =>
      -- the record of the change does not touch the session that is changed
      have noted : w.Steps moves (w.note .debug .builtin
          s!"cd {w.session.cwd} -> {w.session.resolve path}") :=
        w.note_steps _ _ _
      have move := goes w.session path
      refine noted.tail (.moved ?_)
      rwa [World.note_session]

theorem runCd_takes (goes : ∀ (s : Session) (path : String), moves s { s with cwd := s.resolve path })
    (arguments : List String) : Takes (World.Step moves) (runCd arguments) := by
  unfold runCd
  match arguments with
  | [] => exact go_takes goes "~"
  | [target] => exact go_takes goes target
  | _ :: _ :: _ => exact fail_takes _

/-- A builtin changes the session if it is `cd` or, with at most one argument, `exit`. -/
theorem run_takes (b : Builtin) {arguments : List String}
    (goes : b = .cd → ∀ (s : Session) (path : String), moves s { s with cwd := s.resolve path })
    (stops : b = .exit → arguments.length ≤ 1 →
      ∀ (s : Session) (n : Int), moves s { s with exit := some (n % 256) }) :
    Takes (World.Step moves) (b.run arguments) := by
  cases b with
  | exit => exact runExit_takes (stops rfl)
  | echo => exact runEcho_takes arguments
  | pwd => exact runPwd_takes
  | cd => exact runCd_takes (goes rfl) arguments
  | type => exact runType_takes arguments
  | cat => exact runCat_takes arguments

end Builtin

/-! ## Commands -/

namespace Act

theorem runChild_takes (name file : String) (arguments : List String) :
    Takes (World.Step moves) (runChild name file arguments) := by
  intro w
  unfold runChild
  simp only [bind_apply, get_apply]
  cases prepareChild w file arguments with
  | error e => exact .refl
  | ok prepared =>
    have ran : w.Steps moves (prepared.2.run prepared.1 w).2 := prepared.2.run_steps prepared.1 w
    exact ran.trans (World.note_steps _ _ _ _)

theorem start_takes (name file : String) (arguments : List String) :
    Takes (World.Step moves) (start name file arguments) := by
  apply Takes.bind .get
  intro w
  cases handoverFault? file (name :: arguments) w.session with
  | some fault => exact .throw fault
  | none => exact runChild_takes name file arguments

theorem launch_takes (name path : String) (arguments : List String) :
    Takes (World.Step moves) (launch start name path arguments) := by
  apply Takes.bind (Takes.modify World.flushTerminals_steps)
  intro _
  apply Takes.bind (note_takes _ _ _)
  intro _
  apply Takes.bind .get
  intro w
  exact start_takes name _ arguments

theorem launchStatus_takes (name : String) (outcome : Except Errno Int) :
    Takes (World.Step moves) (launchStatus name outcome) := by
  cases outcome with
  | ok status => exact .pure status
  | error e => exact Takes.bind (report_takes _) fun _ => .pure _

theorem dispatch_takes {c : Command} {name : String} (named : c.name = some name) :
    Takes (World.Step c.Moves) (dispatch .usual name c.arguments) := by
  unfold dispatch
  cases found : Builtin.ofName? name with
  | some b =>
    apply Takes.bind (note_takes _ _ _)
    intro _
    have called : b.name = name := Builtin.ofName?_eq_some_iff.1 found
    apply Builtin.run_takes b
    · rintro rfl s path
      exact .goes (by rw [named, ← called]; rfl) path
    · rintro rfl few s n
      exact .stops (by rw [named, ← called]; rfl) few n
  | none =>
    apply Takes.bind (findProgram_takes name)
    intro found
    cases found with
    | none => exact Takes.bind (report_takes _) fun _ => .pure _
    | some path =>
      apply Takes.bind (launch_takes name path c.arguments)
      intro outcome
      exact launchStatus_takes name outcome

theorem perform_takes {c : Command} {name : String} (named : c.name = some name) :
    Takes (World.Step c.Moves) (perform .usual name c) := by
  apply Takes.bind (openRedirects_takes c)
  intro refusal
  cases refusal with
  | some refusal => exact Takes.bind (report_takes _) fun _ => .pure _
  | none => exact dispatch_takes named

theorem execute_takes {parsed : Except ParseError Command} {c : Command} (reads : parsed = .ok c) :
    Takes (World.Step (Session.Moves parsed)) (execute c) := by
  unfold execute executeBy
  cases named : c.name with
  | none => exact Takes.bind .get fun w => .pure _
  | some name =>
    have performed : Takes (World.Step (Session.Moves parsed)) (perform .usual name c) :=
      (perform_takes named).mono fun _ _ step => step.mono fun _ _ move => .works reads move
    apply Takes.bind (closing_takes performed)
    intro status
    exact Takes.bind (remember_takes fun _ => .keeps status) fun _ => .pure status

/-! ## Lines -/

theorem parseLine_takes (line : String) : Takes (World.Step moves) (parseLine line) := by
  have noted : Takes (World.Step moves) (noteOpenQuote line) := by
    unfold noteOpenQuote
    cases Token.openQuote line with
    | some q => exact note_takes _ _ _
    | none => exact .pure ()
  apply Takes.bind noted
  intro _
  exact Takes.bind (note_takes _ _ _) fun _ => .pure _

theorem reportFault_takes {parsed : Except ParseError Command} (line : String) (fault : Fault) :
    Takes (World.Step (Session.Moves parsed)) (reportFault line fault) := by
  apply Takes.bind (note_takes _ _ _)
  intro _
  apply Takes.bind (report_takes _)
  intro _
  exact remember_takes fun _ => .keeps _

theorem runLine_takes (line : String) :
    Takes (World.Step (Session.Moves (Command.meantBy line))) (runLine line) := by
  intro w
  unfold runLine
  split
  · exact .refl
  · obtain ⟨after, parsed, _⟩ := parseLine_apply line w
    change parseLine line w = .ok (Command.meantBy line) after at parsed
    have cut : w.Steps (Session.Moves (Command.meantBy line)) (state (parseLine line w)) :=
      parseLine_takes line w
    rw [parsed] at cut
    rw [bind_apply, parsed]
    refine cut.trans ?_
    dsimp only
    cases Command.meantBy line with
    | error e =>
      exact Takes.bind (report_takes _) (fun _ => remember_takes fun _ => .keeps _) after
    | ok c =>
      have worked : Takes (World.Step (Session.Moves (.ok c))) (discard (execute c)) :=
        Takes.bind (execute_takes rfl) fun _ => .pure ()
      exact worked.tryCatch (reportFault_takes line) after

end Act

end LineShell
