import LineShell.Proofs.Redirection.Work

/-!
# A run with streams in files

`World.Mirrors` relates the world of a command whose streams are those of the shell to the
world of the same command while files stand in for some of its streams. What the command has said
on the one terminal since then has gone to the file of the other run, in full and in order,
though it may still wait in the buffers there; records that are shown have gone to the
terminal of the shell in both runs. All else is the same.

Main statements: the relation is a `Diversion` (`MirrorsBy.diversion`), so a command that spares
the files does the same in both runs (`dispatch_mirrors`).
-/

namespace LineShell

open Act

/-- How a stream of the one run goes with the stream of the other: they are the same, or the
one of the other run is in a file, which is open or closed by now. The terminals have shown
`past` before that and `noted` are the records since, `held` is what the files of the other
run hold. -/
inductive Follows (held : NodeId → Option Bytes) (past noted : Bytes)
    (terminal terminal' : Terminal) : Bool → Option Target → Option OpenFile → Prop
  | shell {isOpen : Bool} (same : terminal' = terminal) :
      Follows held past noted terminal terminal' isOpen none none
  | file {target : Target} {file : OpenFile} {data said all : Bytes}
      (node : file.node = target.node) (holds : held target.node = some data)
      (atEnd : file.append = true ∨ file.offset = data.length)
      (kept : data ++ file.block ++ file.text = target.before ++ said)
      (merges : Merges said noted all) (still : terminal'.shown = past ++ noted)
      (shown : terminal.shown = past ++ all) :
      Follows held past noted terminal terminal' true (some target) (some file)
  | closed {target : Target} {said all : Bytes}
      (holds : held target.node = some (target.before ++ said))
      (merges : Merges said noted all) (still : terminal'.shown = past ++ noted)
      (shown : terminal.shown = past ++ all) :
      Follows held past noted terminal terminal' false (some target) none

namespace Follows

variable {held held' : NodeId → Option Bytes} {past noted : Bytes} {terminal terminal' : Terminal}
  {isOpen : Bool} {target : Option Target} {file : Option OpenFile}

/-- A stream goes on as it did while the content of another file changes. -/
theorem of_away {node : NodeId} {content : Option Bytes}
    (follows : Follows held past noted terminal terminal' isOpen target file)
    (away : ∀ {other}, target = some other → other.node ≠ node) :
    Follows (fun id => if id = node then content else held id) past noted terminal terminal'
      isOpen target file := by
  cases follows with
  | shell same => exact .shell same
  | file same holds atEnd kept merges still shown =>
    exact .file same ((if_neg (away rfl)).trans holds) atEnd kept merges still shown
  | closed holds merges still shown =>
    exact .closed ((if_neg (away rfl)).trans holds) merges still shown

/-- A stream that no file stands in for is the same in both runs. -/
theorem of_none (follows : Follows held past noted terminal terminal' true target none) :
    target = none ∧ terminal' = terminal := by
  cases follows with
  | shell same => exact ⟨rfl, same⟩

/-- An open file is that of its stream. -/
theorem of_some {opened : OpenFile}
    (follows : Follows held past noted terminal terminal' isOpen target (some opened)) :
    ∃ this data, target = some this ∧ opened.node = this.node ∧ held this.node = some data ∧
      (opened.append = true ∨ opened.offset = data.length) := by
  cases follows with
  | file node holds atEnd => exact ⟨_, _, rfl, node, holds, atEnd⟩

/-- What a stream has said is in its file and in the buffers. -/
theorem exists_said {this : Target} {opened : OpenFile} {data : Bytes}
    (follows : Follows held past noted terminal terminal' isOpen (some this) (some opened))
    (holds : held this.node = some data) : ∃ said all,
      data ++ opened.block ++ opened.text = this.before ++ said ∧ Merges said noted all ∧
      terminal'.shown = past ++ noted ∧ terminal.shown = past ++ all := by
  cases follows with
  | @file _ _ before said all _ holdsBefore _ kept merges still shown =>
    obtain rfl : data = before := Option.some.inj (holds.symm.trans holdsBefore)
    exact ⟨said, all, kept, merges, still, shown⟩

/-- What waits in the buffers of the terminals does not matter. -/
theorem flush (follows : Follows held past noted terminal terminal' isOpen target file) :
    Follows held past noted terminal.flush terminal'.flush isOpen target file := by
  cases follows with
  | shell same => exact .shell (congrArg _ same)
  | file node holds atEnd kept merges still shown =>
    exact .file node holds atEnd kept merges (by simpa using still) (by simpa using shown)
  | closed holds merges still shown =>
    exact .closed holds merges (by simpa using still) (by simpa using shown)

/-- The file of a stream grows by what the terminal shows more. -/
theorem write {this : Target} {opened opened' : OpenFile} {data passed bytes : Bytes}
    {grown : Terminal}
    (follows : Follows held past noted terminal terminal' true (some this) (some opened))
    (holds : held this.node = some data) (holds' : held' this.node = some (data ++ passed))
    (node : opened'.node = this.node)
    (atEnd : opened'.append = true ∨ opened'.offset = (data ++ passed).length)
    (kept : passed ++ opened'.block ++ opened'.text = opened.block ++ opened.text ++ bytes)
    (shown : grown.shown = terminal.shown ++ bytes) :
    Follows held' past noted grown terminal' true (some this) (some opened') := by
  obtain ⟨said, all, keptBefore, merges, still, shownBefore⟩ := follows.exists_said holds
  refine .file node holds' atEnd ?_ (merges.say bytes) still ?_
  · calc data ++ passed ++ opened'.block ++ opened'.text
      _ = data ++ (passed ++ opened'.block ++ opened'.text) := by simp
      _ = data ++ opened.block ++ opened.text ++ bytes := by simp [kept]
      _ = this.before ++ (said ++ bytes) := by rw [keptBefore, List.append_assoc]
  · rw [shown, shownBefore, List.append_assoc]

/-- A file that is closed holds all that the stream has said. -/
theorem close {this : Target} {opened : OpenFile} {data : Bytes}
    (follows : Follows held past noted terminal terminal' isOpen (some this) (some opened))
    (holds : held this.node = some data)
    (holds' : held' this.node = some (data ++ opened.block ++ opened.text)) :
    Follows held' past noted terminal terminal' false (some this) none := by
  obtain ⟨said, all, kept, merges, still, shown⟩ := follows.exists_said holds
  exact .closed (holds'.trans (congrArg some kept)) merges still shown

/-- A record that is shown comes to the terminal in both runs, and to no file. -/
theorem note_debug {origin w v : World} {c : Channel} (earlier : origin.records <:+ w.records)
    (echo : v.echo = w.echo)
    (follows : Follows held past (origin.noted w c) (w.terminals.get c) (v.terminals.get c) isOpen
      target file) (source : Log.Source) (message : String) :
    Follows held past (origin.noted (w.note .debug source message) c)
      ((w.note .debug source message).terminals.get c)
      ((v.note .debug source message).terminals.get c) isOpen target file := by
  let line := w.recordLine ⟨.debug, source, message⟩
  cases c with
  | out =>
    have unchanged : ∀ u : World, (u.note .debug source message).terminals.get .out =
        u.terminals.get .out := fun u => World.note_out u .debug source message
    rw [unchanged, unchanged]
    exact follows
  | err =>
    have noted : origin.noted (w.note .debug source message) .err =
        origin.noted w .err ++ line := World.noted_note earlier
    have shown' : ((v.note .debug source message).terminals.get .err).shown =
        (v.terminals.get .err).shown ++ line := by
      rw [World.shown_note, World.recordLine_eq echo]
    have shown : ((w.note .debug source message).terminals.get .err).shown =
        (w.terminals.get .err).shown ++ line := World.shown_note w
    cases follows with
    | shell same => exact .shell (World.note_terminals_eq echo same)
    | file node holds atEnd kept merges still before =>
      rw [noted]
      refine .file node holds atEnd kept (merges.note line) ?_ ?_
      · rw [shown', still, List.append_assoc]
      · rw [shown, before, List.append_assoc]
    | closed holds merges still before =>
      rw [noted]
      refine .closed holds (merges.note line) ?_ ?_
      · rw [shown', still, List.append_assoc]
      · rw [shown, before, List.append_assoc]

end Follows

namespace World

/-- The worlds of the two runs since `origin`, given what the files of the other run hold. -/
structure MirrorsBy (held : NodeId → Option Bytes) (origin : World)
    (targets : Both (Option Target)) (isOpen : Channel → Bool) (w v : World) : Prop
    extends Beside held origin targets w v where
  apart : ∀ {c d target target'}, targets.get c = some target → targets.get d = some target' →
    target.node = target'.node → c = d
  streams : ∀ c, Follows held (origin.terminals.get c).shown (origin.noted w c) (w.terminals.get c)
    (v.terminals.get c) (isOpen c) (targets.get c) (v.redirects.get c)

/-- The worlds of the two runs while the command does its work. -/
def Mirrors (origin : World) (targets : Both (Option Target)) (w v : World) : Prop :=
  ∃ held, MirrorsBy held origin targets (fun _ => true) w v

variable {held : NodeId → Option Bytes} {origin : World} {targets : Both (Option Target)}
  {isOpen : Channel → Bool} {w v : World} {c : Channel}

/-! ## What happens to the streams -/

namespace MirrorsBy

theorem node_ne (mirrors : MirrorsBy held origin targets isOpen w v) {target other : Target}
    {d : Channel} (diverted : targets.get c = some target) (diverted' : targets.get d = some other)
    (different : d ≠ c) : other.node ≠ target.node :=
  fun same => different (mirrors.apart diverted' diverted same)

/-- The file of a stream that is open. -/
theorem exists_target (mirrors : MirrorsBy held origin targets isOpen w v) {file : OpenFile}
    (stands : v.redirects.get c = some file) : ∃ target data, targets.get c = some target ∧
      file.node = target.node ∧ held target.node = some data ∧
      (file.append = true ∨ file.offset = data.length) := by
  have stream := mirrors.streams c
  rw [stands] at stream
  exact stream.of_some

/-- Something is written to a stream that is the same in both runs. -/
theorem onTerminal (mirrors : MirrorsBy held origin targets (fun _ => true) w v)
    (g : Terminal → Terminal) (free : v.redirects.get c = none) :
    MirrorsBy held origin targets (fun _ => true) (w.onTerminal c g) (v.onTerminal c g) := by
  refine { mirrors with streams := fun d => ?_ }
  have stream := mirrors.streams d
  by_cases same : d = c
  · subst same
    rw [free] at stream
    obtain ⟨shared, equal⟩ := stream.of_none
    simp only [onTerminal_terminals, Both.get_set_self, onTerminal_redirects, shared, free]
    exact .shell (congrArg g equal)
  · simpa [same] using stream

/-- What the terminal of the one run shows besides has gone to the file of the other run. -/
theorem write (mirrors : MirrorsBy held origin targets (fun _ => true) w v) {file file' : OpenFile}
    {data passed bytes : Bytes} {g : Terminal → Terminal} (stands : v.redirects.get c = some file)
    (holds : held file.node = some data) (node : file'.node = file.node)
    (atEnd : file'.append = true ∨ file'.offset = (data ++ passed).length)
    (kept : passed ++ file'.block ++ file'.text = file.block ++ file.text ++ bytes)
    (shown : (g (w.terminals.get c)).shown = (w.terminals.get c).shown ++ bytes) :
    MirrorsBy (fun id => if id = file.node then some (data ++ passed) else held id) origin targets
      (fun _ => true) (w.onTerminal c g)
      { v with
        files := v.files.withContents file.node (data ++ passed)
        redirects := v.redirects.set c (some file') } := by
  obtain ⟨target, _, diverted, isTarget, _, _⟩ := mirrors.exists_target stands
  refine { mirrors.toBeside.withContents holds _ with
    apart := mirrors.apart, streams := fun d => ?_ }
  have stream := mirrors.streams d
  by_cases same : d = c
  · -- the stream that is written to: its file has grown by what its terminal shows more
    subst same
    rw [diverted, stands] at stream
    simp only [onTerminal_terminals, Both.get_set_self, diverted]
    rw [isTarget] at holds node ⊢
    exact stream.write holds (if_pos rfl) node atEnd kept shown
  · -- the other stream: its file is a different one, so its content is as before
    simp only [onTerminal_terminals, ne_eq, same, not_false_eq_true, Both.get_set_of_ne]
    rw [isTarget]
    exact stream.of_away fun diverted' => mirrors.node_ne diverted diverted' same

theorem diversion : Diversion origin targets
    fun held => MirrorsBy held origin targets fun _ => true where
  beside mirrors := mirrors.toBeside
  opened mirrors stands := by
    obtain ⟨target, data, _, isTarget, holds, atEnd⟩ := mirrors.exists_target stands
    exact ⟨data, isTarget ▸ holds, atEnd⟩
  note source message mirrors :=
    { mirrors.toBeside.note_debug source message with
      apart := mirrors.apart
      streams := fun c => by
        rw [note_redirects]
        exact (mirrors.streams c).note_debug mirrors.logs.2.1 mirrors.echo source message }
  remember f mirrors := { mirrors with session := congrArg f mirrors.session }
  edit mirrors veils := { mirrors with files := veils }
  flushTerminals mirrors :=
    { mirrors with
      streams := fun c => by
        rw [flushTerminals_get, flushTerminals_get]
        exact (mirrors.streams c).flush }
  onTerminal g mirrors free := mirrors.onTerminal g free
  write mirrors stands holds node _ atEnd kept shown :=
    mirrors.write stands holds node atEnd kept shown

end MirrorsBy

end World

/-- A command that spares the files does the same in both runs. -/
theorem Act.dispatch_mirrors {origin : World} {targets : Both (Option Target)} {w v : World}
    {name : String} {arguments : List String} (related : World.Mirrors origin targets w v)
    (fresh : v.JustOpened) (spared : Spares targets (w.touched name arguments)) :
    SameOutcome (World.Mirrors origin targets) (dispatch .usual name arguments w)
      (dispatch .usual name arguments v) :=
  World.MirrorsBy.diversion.dispatch_sameOutcome related fresh spared

end LineShell
