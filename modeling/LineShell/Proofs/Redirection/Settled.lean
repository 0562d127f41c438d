import LineShell.Proofs.OneRun.Commands
import LineShell.Proofs.Redirection.Account

/-!
# The end of a command and its files

Whatever becomes of a command, whether it comes to a status or stops with a fault: its files are
closed, and all that it has said on a stream that is in a regular file was written to that file.
That a file cannot be closed is noted and changes nothing else.

Main statement: `execute_settles`.
-/

namespace LineShell

open Act
open Relation (ReflTransGen)

namespace World

variable {opened w v u : World} {c : Command} {child : Prop}

/-! ## What a command does can be told -/

/-- The world is reached by things that can be told, among which are edits only if a child runs. -/
def IsTold (opened : World) (child : Prop) (v : World) : Prop :=
  ∃ deeds, (∀ deed ∈ deeds, deed.IsSaid ∨ child) ∧ opened.Works deeds v

theorem IsTold.does {more : List Deed} (told : IsTold opened child v) (does : Does v more u)
    (kinds : ∀ deed ∈ more, deed.IsSaid ∨ child) : IsTold opened child u := by
  obtain ⟨deeds, before, works⟩ := told
  refine ⟨deeds ++ more, fun deed listed => ?_, works.more does⟩
  rcases List.mem_append.1 listed with old | new
  · exact before deed old
  · exact kinds deed new

/-- Something that is not told of. -/
theorem IsTold.other (told : IsTold opened child v) (files : u.files = v.files)
    (redirects : u.redirects = v.redirects) : IsTold opened child u :=
  told.does (.other files redirects) (by simp)

theorem IsTold.correspondence : Correspondence (Alone (IsTold opened child)) := by
  have print_keeps : ∀ c text, Keeps (IsTold opened child) (print c text) := fun c text =>
    Keeps.of_state fun v told => told.does (.prints v c text) (by simp [Deed.IsSaid])
  have flush_keeps : ∀ c, Keeps (IsTold opened child) (flush c) := fun c =>
    Keeps.of_state fun v told => told.does (.flushes v c) (by simp)
  refine
    { session := fun related => by rw [related.1]
      debug := ?_
      print := print_keeps .out
      flush := flush_keeps .out
      printBytes := fun bytes =>
        Keeps.of_state fun v told => told.does (.passes v .out bytes) (by simp [Deed.IsSaid])
      report := fun message => ?_
      candidates := fun name related => by rw [related.1]
      directoryError? := fun path related => by rw [related.1]
      remember := ?_ }
  · rintro w v source message ⟨rfl, told⟩
    exact ⟨rfl, told.other (by simp) (by simp)⟩
  · apply InStep.get_bind
    rintro w v ⟨rfl, _⟩
    apply InStep.bind (InStep.bind (print_keeps .err _) fun _ => print_keeps .err "\n")
    intro _
    exact flush_keeps .err
  · rintro w v f ⟨rfl, told⟩
    exact ⟨rfl, told.other rfl rfl⟩

/-! ## What a child does -/

section
variable (runs : child)
include runs

theorem IsTold.receive (told : IsTold opened child v) (settled : v.JustOpened) (c : Channel)
    (bytes : Bytes) :
    IsTold opened child (v.receive c bytes) ∧ (v.receive c bytes).JustOpened := by
  refine ⟨told.does (.childWrites settled c bytes) fun _ _ => .inr runs, ?_⟩
  cases stands : v.redirects.get c with
  | none =>
    unfold World.receive
    simp only [stands]
    split
    · exact settled
    · exact settled
  | some file =>
    -- a write leaves the buffers as they are
    rw [receive_eq_onFile stands, state_onFile]
    intro d other stands'
    rcases Both.get_set_eq_some stands' with ⟨rfl, rfl⟩ | ⟨_, before⟩
    · have empty := settled d file stands
      unfold OpenFile.write
      dsimp only
      cases v.files.writeTo file.node file.append file.offset bytes <;> exact empty
    · exact settled d other before

theorem IsTold.edits {files : FileSystem} (told : IsTold opened child v)
    (edits : v.files.Edits files) : IsTold opened child { v with files } := by
  induction edits with
  | refl => exact told
  | @tail mid files _ edit ih =>
    have does : Does { v with files := mid } [.edited mid files] { v with files } :=
      .childEdits edit
    exact ih.does does fun _ _ => .inr runs

theorem IsTold.withFiles {ε : Type} (told : IsTold opened child v) (settled : v.JustOpened)
    {outcome : Except ε FileSystem} (edits : ∀ files, outcome = .ok files → v.files.Edits files) :
    IsTold opened child (v.withFiles outcome) ∧ (v.withFiles outcome).JustOpened := by
  cases outcome with
  | ok files => exact ⟨told.edits runs (edits files rfl), settled⟩
  | error e => exact ⟨told, settled⟩

theorem IsTold.perform (told : IsTold opened child v) (settled : v.JustOpened) (started : Child)
    (action : Action) :
    IsTold opened child (started.perform v action) ∧ (started.perform v action).JustOpened := by
  cases action with
  | out text => exact told.receive runs settled .out _
  | err text => exact told.receive runs settled .err _
  | showArguments => exact told.receive runs settled .out _
  | showDirectory => exact told.receive runs settled .out _
  | showVariable name => exact told.receive runs settled .out _
  | write path text => exact told.withFiles runs settled fun _ done => Child.writeFile_edits done
  | remove path => exact told.withFiles runs settled fun _ done => .single (.removed done)
  | permit path access => exact told.withFiles runs settled fun _ done => .single (.permitted done)
  | interrupt => exact ⟨told, settled⟩
  | die signal => exact ⟨told, settled⟩
  | finish status => exact ⟨told, settled⟩

theorem IsTold.runActions (told : IsTold opened child v) (settled : v.JustOpened) (started : Child)
    (actions : List Action) : IsTold opened child (started.runActions actions v).2 := by
  induction actions generalizing v with
  | nil => exact told
  | cons action actions ih =>
    obtain ⟨told', settled'⟩ := told.perform runs settled started action
    -- an action that ends the child leaves the world as it is
    cases action with
    | finish status => exact told
    | die signal => exact told
    | _ => exact ih told' settled'

end

/-- All that a command does since its files were opened, well or not, can be told. -/
theorem perform_isTold (idle : w.IsIdle) {name : String} (named : c.name = some name) :
    IsTold (state (openRedirects c w)) (∃ ending, w.RunsChild c ending)
      (state (perform .usual name c w)) := by
  have fresh := openRedirects_opensFresh idle c
  refine perform_state IsTold.correspondence (fun told => told.other rfl rfl) named
    ⟨[], by simp, .nothing⟩ ?_
  intro before program child starts told
  have runs : ∃ ending, w.RunsChild c ending := ⟨_, starts.runsChild⟩
  obtain ⟨_, path, opened, _, _, opens, _, rfl, _, _⟩ := starts
  refine told.runActions runs (fun d file stands => ?_) child _
  rw [(opened.beforeStart_sharesState _ _ path).redirects] at stands
  rw [opens] at fresh
  obtain ⟨_, block, text, _⟩ := fresh d file stands
  exact ⟨block, text⟩

/-! ## What is in the files -/

/-- What the file `id` holds that held `base` when it was opened, given all that was done since. -/
structure HoldsSaid (opened : World) (id : NodeId) (base : Bytes) (deeds : List Deed) (data : Bytes) :
    Prop where
  account : Account opened.appending (∃ deed ∈ deeds, deed.Changes id) base
    (opened.saidIn id deeds) data
  /-- A single stream in a file that no child changes adds all that it says. -/
  sole : (∀ deed ∈ deeds, ¬ deed.Changes id) → ∀ c, opened.isIn id c = true →
    (∀ d, d ≠ c → opened.isIn id d = false) → data = base ++ Deed.saidOn c deeds
  /-- So do both streams where both are appended to the file. -/
  pooled : (∀ deed ∈ deeds, ¬ deed.Changes id) → (∀ c, opened.isIn id c = true) →
    (∀ c, opened.appending.get c = true) →
    ∃ mixed, Merges (Deed.saidOn .out deeds) (Deed.saidOn .err deeds) mixed ∧ data = base ++ mixed

theorem holdsSaid_of_account {id : NodeId} {base data : Bytes} {deeds : List Deed}
    (fresh : opened.OpensFresh) (holds : opened.files.contents? id = some base)
    (account : Account opened.appending (∃ deed ∈ deeds, deed.Changes id) base
      (opened.saidIn id deeds) data) : HoldsSaid opened id base deeds data where
  account := account
  sole still c isIn alone := by
    have unchanged : ¬ ∃ deed ∈ deeds, deed.Changes id := by simpa using still
    have others : ∀ d, d ≠ c → (opened.saidIn id deeds).get d = [] := fun d different => by
      rw [saidIn_get, alone d different]
      rfl
    have whole := account.sole unchanged others
    rw [saidIn_get, if_pos isIn] at whole
    cases stands : opened.redirects.get c with
    | none => simp [World.isIn, stands] at isIn
    | some file =>
      obtain ⟨_, _, _, empty⟩ := fresh c file stands
      have node : file.node = id := by simpa [World.isIn, stands] using isIn
      rw [appending_get stands] at whole
      cases mode : file.append with
      | true =>
        rw [mode, if_pos rfl, FileSystem.overlaid_length] at whole
        exact whole
      | false =>
        -- what is not appended to was empty
        obtain rfl := empty mode base (node ▸ holds)
        have ending := FileSystem.overlaid_length [] (Deed.saidOn c deeds)
        rw [mode] at whole
        exact whole.trans ending
  pooled still isIn ends := by
    have unchanged : ¬ ∃ deed ∈ deeds, deed.Changes id := by simpa using still
    have both := account.pooled unchanged ends
    simpa [saidIn, isIn] using both

/-! ## Commands that leave a file alone -/

/-- The command does not name the file by a redirection, and it runs no child that gives it other
contents. -/
structure LeavesAlone (w : World) (c : Command) (id : NodeId) : Prop where
  unnamed : ¬ w.IsNamedBy c ((openRedirects c).run w).files id
  unchanged : ∀ name, c.name = some name → ∃ deeds,
    Works ((openRedirects c).run w) deeds ((perform .usual name c).run w) ∧
      ∀ deed ∈ deeds, ¬ deed.Changes id

/-- The world after commands that are carried out one after the other. -/
def runCommands (w : World) (commands : List Command) : World :=
  commands.foldl (fun w c => (execute c).run w) w

/-- Each of the commands leaves the file alone. -/
def AllLeaveAlone (id : NodeId) : World → List Command → Prop
  | _, [] => True
  | w, c :: commands => w.LeavesAlone c id ∧ AllLeaveAlone id ((execute c).run w) commands

end World

namespace Act

open World

variable {w : World} {c : Command} {name : String}

theorem execute_named_files (named : c.name = some name) :
    ((execute c).run w).files = ((perform .usual name c).run w).closeRedirects.files := by
  rw [run_eq_state, run_eq_state, execute_named named]
  exact completing_files _ w

/-- What the files hold after a command. -/
theorem execute_holdsSaid (idle : w.IsIdle) (named : c.name = some name) {deeds : List Deed}
    (works : Works ((openRedirects c).run w) deeds ((perform .usual name c).run w)) {id : NodeId}
    {base : Bytes} (holds : ((openRedirects c).run w).files.contents? id = some base) :
    ∃ data, ((execute c).run w).files.contents? id = some data ∧
      HoldsSaid ((openRedirects c).run w) id base deeds data := by
  have fresh := openRedirects_opensFresh idle c
  rw [← run_eq_state] at fresh
  obtain ⟨data, settled, account⟩ := works.settles fresh holds
  rw [execute_named_files named]
  exact ⟨data, settled, holdsSaid_of_account fresh holds account⟩

theorem contents?_of_leavesAlone (idle : w.IsIdle) {id : NodeId} {data : Bytes}
    (alone : w.LeavesAlone c id) (holds : w.files.contents? id = some data) :
    ((execute c).run w).files.contents? id = some data := by
  cases named : c.name with
  | none =>
    have nothing : execute c w = .ok w.session.status w := by
      simp [execute, executeBy, named]
    simpa [Act.run, nothing] using holds
  | some name =>
    obtain ⟨deeds, works, still⟩ := alone.unchanged name named
    have opening := w.openRedirects_stays idle c
    dsimp only at opening
    rw [← run_eq_state] at opening
    rw [← opening.tree.contents?_eq alone.unnamed] at holds
    obtain ⟨after, settled, said⟩ := execute_holdsSaid idle named works holds
    -- none of the streams is in the file
    have nowhere : ∀ c', ((openRedirects c).run w).isIn id c' = false := by
      intro c'
      unfold isIn
      cases stands : ((openRedirects c).run w).redirects.get c' with
      | none => rfl
      | some file =>
        have isNamed := opening.streams stands
        have other : file.node ≠ id := fun same => alone.unnamed (same ▸ isNamed)
        simpa using other
    have silent : saidIn ((openRedirects c).run w) id deeds = ⟨[], []⟩ := by
      simp [saidIn, nowhere]
    have account := said.account
    rw [silent] at account
    have unchanged : ¬ ∃ deed ∈ deeds, deed.Changes id := by simpa using still
    have same := account.sole (c := .out) unchanged fun d _ => by cases d <;> rfl
    rw [settled, same]
    exact congrArg some (FileSystem.overlaid_nil data _)

theorem contents?_of_allLeaveAlone (idle : w.IsIdle) {id : NodeId} {data : Bytes}
    {commands : List Command} (alone : AllLeaveAlone id w commands)
    (holds : w.files.contents? id = some data) :
    (w.runCommands commands).files.contents? id = some data := by
  induction commands generalizing w with
  | nil => exact holds
  | cons c commands ih =>
    exact ih (execute_isIdle c idle) alone.2 (contents?_of_leavesAlone idle alone.1 holds)

/-- The work of a command does not touch the status. -/
theorem perform_status (named : c.name = some name) :
    ((perform .usual name c).run w).session.status = w.session.status := by
  have moves := Steps.session (perform_takes named w)
  rw [run_eq_state]
  generalize (state (perform .usual name c w)).session = s at moves ⊢
  induction moves with
  | refl => rfl
  | tail _ move ih =>
    cases move with
    | goes => exact ih
    | stops => exact ih

/-- A command ends as its work has ended, when its files have been closed one after the other. -/
theorem execute_closes (named : c.name = some name) :
    let done := (perform .usual name c).run w
    ∃ mid last, done.Closes .err mid ∧ mid.Closes .out last ∧
      last.session.status = w.session.status ∧
      ((∃ status, perform .usual name c w = .ok status done ∧
          execute c w = .ok status { last with session := { last.session with status } }) ∨
        ∃ fault, perform .usual name c w = .error fault done ∧ execute c w = .error fault last) := by
  intro done
  have status : done.session.status = w.session.status := perform_status named
  have first := done.closes_closeRedirect .err
  have second := (done.closeRedirect .err).closes_closeRedirect .out
  refine ⟨_, _, first, second, ?_, ?_⟩
  · rw [second.session, first.session, status]
  · have ends : execute c w = completing (perform .usual name c) w := by
      rw [execute, executeBy, named]
    rw [ends]
    cases ran : perform .usual name c w with
    | ok status after =>
      have reached : done = after := by simp [done, Act.run, ran]
      rw [reached]
      exact .inl ⟨status, rfl, completing_closeRedirects ran rfl⟩
    | error fault after =>
      have reached : done = after := by simp [done, Act.run, ran]
      rw [reached]
      refine .inr ⟨fault, rfl, ?_⟩
      simp only [completing, bind_apply, closing, ran]
      rfl

/-- Whatever becomes of a command, its files are closed. What it comes to is what its work has come
to, a status or a fault, and only a status is kept. The files are closed one after the other; where
that fails nothing happens but that a warning is noted. All that can be told of what it has done can
be told from its opening files to the end of its work, and by then all that was said on a stream in
a regular file was written to this file, each stream at its own place: it is in the file unless the
other stream or a child has put something else there. No later command changes the file that does
not name it and runs no child that does. -/
theorem execute_settles (idle : w.IsIdle) (c : Command) :
    let opened := (openRedirects c).run w
    let after := (execute c).run w
    after.IsIdle ∧
    (c.name = none → execute c w = .ok w.session.status w) ∧
    (∀ name, c.name = some name →
      let done := (perform .usual name c).run w
      (∃ mid last, done.Closes .err mid ∧ mid.Closes .out last ∧
        last.session.status = w.session.status ∧
        ((∃ status, perform .usual name c w = .ok status done ∧
            execute c w = .ok status { last with session := { last.session with status } }) ∨
          ∃ fault, perform .usual name c w = .error fault done ∧
            execute c w = .error fault last)) ∧
      (∃ deeds, opened.Works deeds done ∧
        ((∀ ending, ¬ w.RunsChild c ending) → ∀ deed ∈ deeds, deed.IsSaid)) ∧
      ∀ deeds, opened.Works deeds done → ∀ id base, opened.files.contents? id = some base →
        ∃ data, after.files.contents? id = some data ∧ opened.HoldsSaid id base deeds data) ∧
    ∀ later id data, after.files.contents? id = some data → AllLeaveAlone id after later →
      (after.runCommands later).files.contents? id = some data := by
  intro opened after
  refine ⟨execute_isIdle c idle, fun unnamed => by simp [execute, executeBy, unnamed],
    fun name named => ⟨execute_closes named, ?_, ?_⟩, ?_⟩
  · obtain ⟨deeds, kinds, works⟩ := perform_isTold idle named
    rw [← run_eq_state, ← run_eq_state] at works
    refine ⟨deeds, works, fun noChild deed listed => ?_⟩
    have notRun : ¬ ∃ ending, w.RunsChild c ending := by simpa using noChild
    exact (kinds deed listed).resolve_right notRun
  · intro deeds works id base holds
    exact execute_holdsSaid idle named works holds
  · intro later id data holds alone
    exact contents?_of_allLeaveAlone (execute_isIdle c idle) alone holds

/-- A shell in a directory with a file and with the device that is full. -/
def fullDevice : World :=
  let open_ : Access := FileSystem.fullAccess
  { files := ⟨#[.directory open_ FileSystem.root "" [("old", 1), ("full", 2)],
      .file open_ (Utf8.encode "kept").toArray none, .device .full]⟩
    here := FileSystem.root
    session := { cwd := "/", env := [] } }

/-- What `type echo nosuch > old 2> full` has said before its fault is in the file. -/
theorem type_settles :
    let c : Command :=
      { name := some "type", arguments := ["echo", "nosuch"]
        stdout := some ⟨"old", false⟩, stderr := some ⟨"full", false⟩ }
    fullDevice.IsIdle ∧ ∃ deeds v,
      Works ((openRedirects c).run fullDevice) deeds ((perform .usual "type" c).run fullDevice) ∧
      execute c fullDevice = .error (.refused .noSpace) v ∧ v.IsIdle ∧
      v.files.contents? 1 = some (Deed.saidOn .out deeds) ∧
      Deed.saidOn .out deeds = Utf8.encode "echo is a shell builtin\n" := by
  intro c
  have idle : fullDevice.IsIdle := rfl
  obtain ⟨closed, _, settles, _⟩ := execute_settles idle c
  obtain ⟨_, ⟨deeds, works, said⟩, holds⟩ := settles "type" rfl
  have noChild : ∀ ending, ¬ fullDevice.RunsChild c ending := by
    rintro ending ⟨name, _, _, _, _, named, notBuiltin, _⟩
    cases named
    exact absurd notBuiltin (by decide)
  have still : ∀ deed ∈ deeds, ¬ deed.Changes 1 := by
    intro deed listed
    have isSaid := said noChild deed listed
    cases deed with
    | said => exact not_false
    | edited => cases isSaid
  have empty : ((openRedirects c).run fullDevice).files.contents? 1 = some [] := by decide +kernel
  obtain ⟨data, there, whole⟩ := holds deeds works 1 [] empty
  have alone : ∀ d, d ≠ .out → ((openRedirects c).run fullDevice).isIn 1 d = false := by
    intro d other
    cases d with
    | out => exact absurd rfl other
    | err => decide +kernel
  have all := whole.sole still .out (by decide +kernel) alone
  rw [List.nil_append] at all
  have shown : ((execute c).run fullDevice).files.contents? 1 =
      some (Utf8.encode "echo is a shell builtin\n") := by decide +kernel
  rw [all] at there
  exact ⟨idle, deeds, _, works, by decide +kernel, closed, there,
    Option.some.inj (there.symm.trans shown)⟩

/-- Where both streams are in one file and are not appended to it, one puts its bytes over those of
the other: what `type echo nosuch` has said on its standard error is not in the file. -/
theorem type_overwritten :
    let plain : Command := { name := some "type", arguments := ["echo", "nosuch"] }
    let c : Command :=
      { plain with stdout := some ⟨"old", false⟩, stderr := some ⟨"old", false⟩ }
    ∃ v v', execute plain oneFile = .ok 1 v ∧
      v.terminals.out.shown = Utf8.encode "echo is a shell builtin\n" ∧
      v.terminals.err.shown = Utf8.encode "nosuch: not found\n" ∧
      execute c oneFile = .ok 1 v' ∧
      (v'.files.find oneFile.here (oneFile.session.resolve "old")).toOption = some 1 ∧
      v'.files.contents? 1 = some (Utf8.encode "echo is a shell builtin\n") ∧
      ¬ Utf8.encode "nosuch: not found\n" <:+: Utf8.encode "echo is a shell builtin\n" := by
  intro plain c
  refine ⟨(execute plain).run oneFile, (execute c).run oneFile, ?_, ?_, ?_, ?_, ?_, ?_, ?_⟩ <;>
    decide +kernel

end Act

end LineShell
