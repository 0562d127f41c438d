import LineShell.Proofs.Execution.Course
import LineShell.Proofs.Redirection.Beside

/-!
# Children with streams in files

A child writes past all buffers, to a terminal in the one run and straight to a file in the
other. Both come to the same if nothing waits in a buffer before the child starts
(`World.Settled`).

What a child and its launch read and write of the tree must not be a file that stands in for a
stream. `World.touchedByStart` lists the files that count: those that are opened to find the
program, the script that it reads, and those that the child writes to, each at the moment at
which it happens.

Main statement: `Diversion.launch_sameOutcome`.
-/

namespace LineShell

open Act

/-! ## Files that are touched -/

namespace Child

/-- The script that a program reads. -/
def scriptOf (child : Child) (files : FileSystem) : Program → List NodeId
  | .actions _ => []
  | .scriptReader =>
    match child.arguments.dropWhile fun a => "-".toList.isPrefixOf a.toList with
    | [] => []
    | script :: _ => (files.find child.directory script).toOption.toList

/-- The file that an action puts a text into, if it is there already. -/
def writtenBy (child : Child) (files : FileSystem) : Action → List NodeId
  | .write path _ =>
    match files.locate .write child.directory path with
    | .ok (.node id) => [id]
    | _ => []
  | _ => []

/-- The files that a child puts texts into. -/
def writtenByAll (child : Child) : List Action → World → List NodeId
  | [], _ => []
  | .finish _ :: _, _ => []
  | .die _ :: _, _ => []
  | action :: actions, w =>
    child.writtenBy w.files action ++ child.writtenByAll actions (child.perform w action)

/-- The files that a child touches. -/
def touched (child : Child) (program : Program) (w : World) : List NodeId :=
  child.scriptOf w.files program ++ child.writtenByAll (child.actionsOf w.files program) w

end Child

/-- The files that are touched where the program behind the path `file` is started. -/
def World.touchedByStart (w : World) (file : String) (arguments : List String) : List NodeId :=
  match w.files.enter w.here w.session.cwd with
  | .error _ => []
  | .ok directory =>
    w.files.launched directory file ++
      match Act.prepareChild w file arguments with
      | .error _ => []
      | .ok (program, child) => child.touched program w

/-- No file that stands in for a stream is one of these. -/
def Spares (targets : Both (Option Target)) (ids : List NodeId) : Prop :=
  ∀ c target, targets.get c = some target → target.node ∉ ids

namespace World

/-- Nothing waits in the buffers of the terminals of the one run, nor in those of the files of
the other. -/
def Settled (w v : World) : Prop :=
  ∀ c, (w.terminals.get c).pending = [] ∧
    ∀ file, v.redirects.get c = some file → file.block = [] ∧ file.text = []

variable {held : NodeId → Option Bytes} {origin : World} {targets : Both (Option Target)}
  {w v : World} {ids : List NodeId}

theorem Beside.held_eq_none (beside : Beside held origin targets w v) (spared : Spares targets ids)
    {id : NodeId} (listed : id ∈ ids) : held id = none := by
  cases holds : held id with
  | none => rfl
  | some data =>
    obtain ⟨c, target, diverted, same⟩ := beside.only holds
    exact absurd (same ▸ listed) (spared c target diverted)

/-- The worlds of two runs in which a child may write. -/
def RelatedSettled (R : (NodeId → Option Bytes) → World → World → Prop) (w v : World) : Prop :=
  Related R w v ∧ Settled w v

end World

namespace Diversion

open World

variable {origin : World} {targets : Both (Option Target)}
  {R : (NodeId → Option Bytes) → World → World → Prop} (diversion : Diversion origin targets R)
  {w v : World}
include diversion

/-! ## What a child does -/

theorem receive (related : RelatedSettled R w v) (c : Channel) (bytes : Bytes) :
    RelatedSettled R (w.receive c bytes) (v.receive c bytes) := by
  obtain ⟨⟨held, related⟩, settled⟩ := related
  have beside := diversion.beside related
  have plain : w.receive c bytes = w.onTerminal c (·.write bytes) := by
    simp [World.receive, beside.idle.get, beside.raw]
  have waits : ∀ d, ((w.onTerminal c (·.write bytes)).terminals.get d).pending = [] := by
    intro d
    by_cases same : d = c
    · subst same
      simpa [Terminal.write] using (settled d).1
    · simpa [same] using (settled d).1
  rw [plain]
  cases stands : v.redirects.get c with
  | none =>
    -- the child inherits the same terminal in both runs
    have other : v.receive c bytes = v.onTerminal c (·.write bytes) := by
      simp [World.receive, stands, beside.console, beside.raw]
    rw [other]
    exact ⟨⟨held, diversion.onTerminal _ related stands⟩, fun d => ⟨waits d, (settled d).2⟩⟩
  | some file =>
    -- it writes straight to the file, which is in order since nothing waits in the buffers
    obtain ⟨block, text⟩ := (settled c).2 file stands
    obtain ⟨data, holds, regular, start⟩ := diversion.exists_written related stands
    obtain ⟨⟨file', files'⟩, ran, written, block', text'⟩ :=
      OpenFile.write_written regular start bytes
    obtain rfl : files' = v.files.withContents file.node (data ++ bytes) := written.files
    have other : v.receive c bytes =
        { v with
          files := v.files.withContents file.node (data ++ bytes)
          redirects := v.redirects.set c (some file') } := by
      simp [World.receive, stands, ran]
    have kept : bytes ++ file'.block ++ file'.text = file.block ++ file.text ++ bytes := by
      dsimp only at block' text'
      rw [block', text', block, text]
      simp
    have shown := Terminal.shown_write (settled c).1 bytes
    rw [other]
    refine ⟨⟨_, diversion.write related stands holds written.same written.mode written.atEnd kept
      shown⟩, fun d => ⟨waits d, fun file'' stands' => ?_⟩⟩
    rcases Both.get_set_eq_some stands' with ⟨rfl, rfl⟩ | ⟨_, before⟩
    · exact ⟨block'.trans block, text'.trans text⟩
    · exact (settled d).2 file'' before

/-- A child edits the tree in both runs. -/
theorem withFiles {ε : Type} (related : RelatedSettled R w v)
    {edited edited' : Except ε FileSystem}
    (alike : ∀ held, World.Beside held origin targets w v →
      FileSystem.EditedAlike held edited edited') :
    RelatedSettled R (w.withFiles edited) (v.withFiles edited') := by
  obtain ⟨⟨held, related⟩, settled⟩ := related
  cases alike held (diversion.beside related) with
  | refused e => exact ⟨⟨held, related⟩, settled⟩
  | done veils => exact ⟨⟨held, diversion.edit related veils⟩, settled⟩

theorem perform (related : RelatedSettled R w v) (child : Child) (action : Action)
    (spared : Spares targets (child.writtenBy w.files action)) :
    RelatedSettled R (child.perform w action) (child.perform v action) := by
  cases action with
  | out text => exact diversion.receive related .out _
  | err text => exact diversion.receive related .err _
  | showArguments => exact diversion.receive related .out _
  | showDirectory =>
    obtain ⟨held, related'⟩ := related.1
    simp only [Child.perform, (diversion.beside related').files.pathTo_eq]
    exact diversion.receive related .out _
  | showVariable name => exact diversion.receive related .out _
  | write path text =>
    apply diversion.withFiles related
    intro held beside
    apply beside.files.writeFile
    intro id located
    exact beside.held_eq_none spared (by simp [Child.writtenBy, located])
  | remove path => exact diversion.withFiles related fun _ beside => beside.files.remove _ path
  | permit path access =>
    exact diversion.withFiles related fun _ beside => beside.files.permit _ path access
  | interrupt => exact related
  | die signal => exact related
  | finish status => exact related

/-- A child that spares the files does the same in both runs. -/
theorem runActions (related : RelatedSettled R w v) (child : Child)
    (actions : List Action) (spared : Spares targets (child.writtenByAll actions w)) :
    (child.runActions actions v).1 = (child.runActions actions w).1 ∧
      RelatedSettled R (child.runActions actions w).2 (child.runActions actions v).2 := by
  -- the files that are spared depend on the world in which each action begins
  induction actions generalizing w v with
  | nil => exact ⟨rfl, related⟩
  | cons action actions ih =>
    cases action with
    | finish status => exact ⟨rfl, related⟩
    | die signal => exact ⟨rfl, related⟩
    | _ =>
      have first := diversion.perform related child _ fun c target diverted listed =>
        spared c target diverted (List.mem_append_left _ listed)
      exact ih first fun c target diverted listed =>
        spared c target diverted (List.mem_append_right _ listed)

theorem actionsOf_eq (related : Related R w v) (child : Child) (program : Program)
    (spared : Spares targets (child.scriptOf w.files program)) :
    child.actionsOf v.files program = child.actionsOf w.files program := by
  obtain ⟨held, related⟩ := related
  have beside := diversion.beside related
  cases program with
  | actions actions => rfl
  | scriptReader =>
    unfold Child.scriptOf at spared
    unfold Child.actionsOf
    dsimp only at spared ⊢
    cases found : child.arguments.dropWhile fun a => "-".toList.isPrefixOf a.toList with
    | nil => rfl
    | cons script rest =>
      rw [found] at spared
      have same : v.files.read child.directory script = w.files.read child.directory script := by
        apply beside.files.read_eq
        intro id found
        exact beside.held_eq_none spared (by simp [found, Except.toOption])
      simp only [same]

theorem run (related : RelatedSettled R w v) (child : Child) (program : Program)
    (spared : Spares targets (child.touched program w)) :
    (child.run program v).1 = (child.run program w).1 ∧
      RelatedSettled R (child.run program w).2 (child.run program v).2 := by
  unfold Child.run
  rw [diversion.actionsOf_eq related.1 child program fun c target diverted listed =>
    spared c target diverted (List.mem_append_left _ listed)]
  exact diversion.runActions related child _ fun c target diverted listed =>
    spared c target diverted (List.mem_append_right _ listed)

end Diversion

/-! ## Launches -/

namespace World

variable {w v : World}

/-- Nothing has been written yet to the files that stand in for streams. -/
def JustOpened (v : World) : Prop :=
  ∀ c file, v.redirects.get c = some file → file.block = [] ∧ file.text = []

theorem flushTerminals_get (w : World) (c : Channel) :
    w.flushTerminals.terminals.get c = (w.terminals.get c).flush := by
  cases c <;> rfl

theorem mem_openNodes {id : NodeId} :
    id ∈ openNodes v ↔ ∃ c file, v.redirects.get c = some file ∧ file.node = id := by
  constructor
  · intro listed
    simp only [openNodes, List.map_append, List.mem_append, List.mem_map,
      Option.mem_toList] at listed
    rcases listed with ⟨file, stands, same⟩ | ⟨file, stands, same⟩
    · exact ⟨.out, file, stands, same⟩
    · exact ⟨.err, file, stands, same⟩
  · rintro ⟨c, file, stands, rfl⟩
    simp only [openNodes, List.map_append, List.mem_append, List.mem_map, Option.mem_toList]
    cases c with
    | out => exact .inl ⟨file, stands, rfl⟩
    | err => exact .inr ⟨file, stands, rfl⟩

end World

namespace Diversion

open World

variable {origin : World} {targets : Both (Option Target)}
  {R : (NodeId → Option Bytes) → World → World → Prop} (diversion : Diversion origin targets R)
  {held : NodeId → Option Bytes} {w v : World} {name file : String} {arguments : List String}
include diversion

/-- Before a child is started the shell empties the buffers of its own streams; those of files
are empty because the shell has not used them. -/
theorem flushTerminals_settled (related : Related R w v) (fresh : v.JustOpened) :
    RelatedSettled R w.flushTerminals v.flushTerminals := by
  obtain ⟨held, related⟩ := related
  refine ⟨⟨held, diversion.flushTerminals related⟩, fun c => ⟨?_, fresh c⟩⟩
  rw [flushTerminals_get]
  rfl

theorem note_settled (related : RelatedSettled R w v) (source : Log.Source) (message : String) :
    RelatedSettled R (w.note .debug source message) (v.note .debug source message) := by
  obtain ⟨⟨held, related⟩, settled⟩ := related
  refine ⟨⟨held, diversion.note source message related⟩, fun c => ⟨?_, ?_⟩⟩
  · exact pending_note (settled c).1
  · simpa using (settled c).2

/-- The same program is found, for a file that is open for writing is none that is looked at. -/
theorem prepareChild_eq (related : R held w v)
    (spared : Spares targets (w.touchedByStart file arguments)) :
    prepareChild v file arguments = prepareChild w file arguments := by
  have beside := diversion.beside related
  -- a file that is open for writing is busy in the other run only, but it stands in for a stream
  have busy : ∀ id ∈ openNodes v, held id ≠ none := by
    intro id listed
    obtain ⟨c, file, stands, rfl⟩ := mem_openNodes.1 listed
    obtain ⟨data, holds, _⟩ := diversion.opened related stands
    simp [holds]
  have none_open : openNodes w = [] := by
    rw [openNodes, beside.idle]
    rfl
  unfold touchedByStart at spared
  simp only [prepareChild, beside.here, beside.session, beside.files.enter_eq, none_open]
  cases entered : w.files.enter w.here w.session.cwd with
  | error e => rfl
  | ok directory =>
    rw [entered] at spared
    have apart : ∀ id ∈ w.files.launched directory file, held id = none :=
      fun id listed => beside.held_eq_none spared (List.mem_append_left _ listed)
    simp only [bind, Except.bind, beside.files.image_eq busy apart]

theorem start_sameOutcome (related : RelatedSettled R w v)
    (spared : Spares targets (w.touchedByStart file arguments)) :
    SameOutcome (RelatedSettled R) (start name file arguments w) (start name file arguments v) := by
  obtain ⟨held, related'⟩ := related.1
  apply Act.start_sameOutcome related (diversion.beside related').session
  apply runChild_sameOutcome related (fun _ _ related => diversion.note_settled related _ _)
    (diversion.prepareChild_eq related' spared)
  intro program child prepared
  apply diversion.run related child program
  intro c target diverted listed
  apply spared c target diverted
  unfold touchedByStart
  cases entered : w.files.enter w.here w.session.cwd with
  | error e => simp [prepareChild, entered, bind, Except.bind] at prepared
  | ok directory => simp [prepared, listed]

theorem afterSearch (related : Related R w v) (name : String) :
    Related R (w.afterSearch name) (v.afterSearch name) := by
  unfold World.afterSearch
  rw [diversion.correspondence.candidates name related]
  exact diversion.reporting.debug _ _ related

/-- A launch comes to the same in both runs. -/
theorem launch_sameOutcome {path : String} (related : Related R w v) (fresh : v.JustOpened)
    (spared : Spares targets ((w.beforeStart name path arguments).touchedByStart
      (Path.join w.session.cwd path) arguments)) :
    SameOutcome (Related R) (launch start name path arguments (w.afterSearch name))
      (launch start name path arguments (v.afterSearch name)) := by
  have fresh' : (v.afterSearch name).JustOpened := by
    simpa [JustOpened, World.afterSearch] using fresh
  have session : v.session = w.session := diversion.reporting.session related
  rw [launch_apply, launch_apply, session]
  have flushed := diversion.flushTerminals_settled (diversion.afterSearch related name) fresh'
  have settled := diversion.note_settled flushed .execution
    s!"launching {path} as {Text.quote name} with {Text.quoteList arguments}"
  exact (diversion.start_sameOutcome settled spared).mono fun _ _ related => related.1

end Diversion

end LineShell
