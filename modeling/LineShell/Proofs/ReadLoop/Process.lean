import LineShell.CommandLine
import LineShell.Proofs.ReadLoop.Errors
import LineShell.Proofs.ReadLoop.InputLines
import LineShell.Proofs.ReadLoop.Run

/-!
# The process and the loop

A process that is started without arguments, or with `--color` alone, does what the loop does that
is given the lines of its input one by one. Beside the loop the process shows records with its
errors, which `World.Telling` takes no notice of, and its prompts on the standard output.

Main statement: `start_fresh`.
-/

namespace LineShell

open Act Act.InStep

/-! ## What each read writes -/

/-- What was shown before the reads, and by how much each of them adds to it. -/
inductive Writes : Bytes → List Reading → List Bytes → Prop
  | nothing {before : Bytes} : Writes before [] []
  | read {before piece : Bytes} {reading : Reading} {readings : List Reading} {pieces : List Bytes}
      (shown : reading.after.terminals.out.shown = before ++ piece)
      (more : Writes (before ++ piece) readings pieces) :
      Writes before (reading :: readings) (piece :: pieces)

namespace World

variable (reader : Reader) {w v : World}

/-- Read by read the loop writes the prompt, if it is shown, and the piece of the item. -/
theorem writes_trace (same : v.SameButOutput w) (idle : v.IsIdle) (items : List Item) :
    let read := w.readItems items
    let stopped := (w.runLines (Item.lines read)).session.isStopped
    Writes v.terminals.out.shown (v.trace reader id items)
      (((w.pieces read).map (·.2) ++ (if stopped then [] else [newline])).map (reader.shown ++ ·)) := by
  dsimp only
  -- on the script; the loop is in `v` where the fold is in `w`
  induction items generalizing v w with
  | nil =>
    by_cases stopped : w.session.isStopped
    · have stopped' : v.session.isStopped := same.session ▸ stopped
      simp only [readItems, Item.lines_nil, runLines_nil, stopped, reduceIte,
        trace_of_isStopped reader stopped']
      exact .nothing
    · have going : ¬ v.session.isStopped := same.session ▸ stopped
      obtain ⟨_, grown⟩ := step_end reader same idle
      simp only [readItems, Item.lines_nil, runLines_nil, stopped, trace_nil reader going]
      exact .read grown .nothing
  | cons item items ih =>
    by_cases stopped : w.session.isStopped
    · have stopped' : v.session.isStopped := same.session ▸ stopped
      simp only [readItems_of_isStopped stopped, Item.lines_nil, runLines_nil, if_pos stopped,
        trace_of_isStopped reader stopped']
      exact .nothing
    · have going : ¬ v.session.isStopped := same.session ▸ stopped
      obtain ⟨piece, first, idle', same', grown⟩ := step_item reader same idle item
      have rest := ih same' idle'
      have folded := runLines_lines_cons w item ((w.runLines (Item.lines [item])).readItems items)
      simp only [readItems, if_neg stopped, first, folded, trace_cons reader going]
      rw [grown] at rest
      exact .read grown rest

/-! ## Lines behind the one that stops the shell -/

/-- A script that begins with what is read, where that stops the shell, is read no further. -/
theorem trace_eq_of_prefix (same : v.SameButOutput w) (idle : v.IsIdle) {items more : List Item}
    (stopped : (w.runLines (Item.lines (w.readItems items))).session.isStopped)
    (begins : w.readItems items <+: more) :
    v.trace reader id more = v.trace reader id items := by
  induction items generalizing v w more with
  | nil =>
    have stopped' : v.session.isStopped := same.session ▸ stopped
    rw [trace_of_isStopped reader stopped', trace_of_isStopped reader stopped']
  | cons item items ih =>
    by_cases already : w.session.isStopped
    · have stopped' : v.session.isStopped := same.session ▸ already
      rw [trace_of_isStopped reader stopped', trace_of_isStopped reader stopped']
    · have going : ¬ v.session.isStopped := same.session ▸ already
      have reads : w.readItems (item :: items) =
          item :: (w.runLines (Item.lines [item])).readItems items := if_neg already
      rw [reads] at begins
      rw [reads, runLines_lines_cons] at stopped
      cases more with
      | nil => exact absurd (List.prefix_nil.1 begins) (List.cons_ne_nil _ _)
      | cons other more =>
        obtain ⟨rfl, onward⟩ := List.cons_prefix_cons.1 begins
        obtain ⟨_, _, idle', same', _⟩ := step_item reader same idle item
        rw [trace_cons reader going, trace_cons reader going]
        exact congrArg _ (ih same' idle' stopped onward)

/-! ## Records that are shown -/

section
variable {origin origin' : World} (raw : origin'.console.textOnly = origin.console.textOnly)
include raw

theorem Telling.runLine_respects (line : String) :
    Respects (Telling origin origin' fun _ => True) (runLine line) := by
  rintro w v ⟨said, _, tells⟩
  -- what is said since the line began comes after what was said before
  have onward : ∀ {allowed : Said → Prop} u u', Telling w v allowed u u' →
      Telling origin origin' (fun _ => True) u u' := by
    rintro allowed u u' ⟨more, _, tells'⟩
    exact ⟨said ++ more, fun _ _ => trivial, tells.trans tells'⟩
  rcases tells.next raw line with ⟨_, ended⟩ | ⟨_, ended⟩
  · exact ended.mono onward
  · exact ended.mono onward

theorem Tells.readItems_eq {w v : World} {said : List Said} (tells : Tells origin origin' said w v)
    (items : List Item) : v.readItems items = w.readItems items := by
  induction items generalizing w v said with
  | nil => rfl
  | cons item items ih =>
    obtain ⟨_, tells'⟩ := tells.runLines raw (Item.lines [item])
    rw [readItems, readItems, tells.session, ih tells']

theorem Telling.readStep_respects (item : Option Item) :
    Respects (Telling origin origin' fun _ => True) (readStep reader item) := by
  have speaking : Speaking (Telling origin origin' fun _ => True) :=
    Telling.speaking raw fun _ _ => trivial
  refine bind ?_ fun _ => ?_
  · unfold Reader.showPrompt
    split
    · exact bind (speaking.print_respects _) fun _ => speaking.flush_respects
    · exact InStep.pure _
  · cases item with
    | none =>
      refine bind (speaking.print_respects _) fun _ => ?_
      rintro w v telling
      exact speaking.remember_respects _ telling
    | some item =>
      cases item with
      | line text => exact runLine_respects raw text
      | interrupt => exact speaking.print_respects _

/-- Whether records are shown or not, the loop does the same. -/
theorem Telling.readAll {w v : World} (telling : Telling origin origin' (fun _ => True) w v)
    (items : List Item) : Telling origin origin' (fun _ => True) (w.readAll reader id items)
      (v.readAll reader id items) := by
  have next : ∀ {w v : World}, Telling origin origin' (fun _ => True) w v → ∀ item,
      Telling origin origin' (fun _ => True) (w.reading reader item).after
        (v.reading reader item).after :=
    fun telling item => (Telling.readStep_respects reader raw item).run telling
  have session : ∀ {w v : World}, Telling origin origin' (fun _ => True) w v →
      v.session = w.session := by
    rintro w v ⟨_, _, tells⟩
    exact tells.session
  induction items generalizing w v with
  | nil =>
    by_cases stopped : w.session.isStopped
    · rwa [readAll_of_isStopped reader stopped,
        readAll_of_isStopped reader (session telling ▸ stopped)]
    · rw [readAll_nil reader stopped, readAll_nil reader (session telling ▸ stopped)]
      exact next telling none
  | cons item items ih =>
    by_cases stopped : w.session.isStopped
    · rwa [readAll_of_isStopped reader stopped,
        readAll_of_isStopped reader (session telling ▸ stopped)]
    · rw [readAll_cons reader stopped, readAll_cons reader (session telling ▸ stopped)]
      exact ih (next telling (some item))

end

/-! ## The process -/

/-- The arguments of a process: none, or the one that asks for colors. -/
def colorArguments (color : Bool) : List String :=
  if color then ["--color"] else []

theorem ofArguments_colorArguments (color : Bool) :
    Invocation.ofArguments (colorArguments color) = .ok (.run color) := by
  cases color <;> rfl

/-- What the environment asks for. -/
def settings (w : World) : Settings :=
  Settings.ofEnvironment w.session.env

/-- The world of a process with the colors that the environment or the arguments ask for. -/
def configured (w : World) (color : Bool) : World :=
  w.colored (w.settings.colors || color)

/-- What a process reads: the lines of its input. -/
def script (input : String) : List Item :=
  (CommandLine.inputLines input).map .line

section
variable (w : World) (stamp : String) (color : Bool)

/-- The loop that a process comes to, which shows its prompts and its records. -/
theorem start_eq (input : String) :
    let loop := (w.prepare stamp color).readAll ⟨w.settings.prompt, true⟩ id (script input)
    w.start stamp (colorArguments color) input = (loop.session.exit.getD 0, loop) := by
  simp only [start, ofArguments_colorArguments]
  rfl

theorem prepare_tells :
    Tells (w.configured color) (w.prepare stamp color) [] (w.configured color)
      (w.prepare stamp color) :=
  .refl _ _ ⟨⟨rfl, rfl, rfl, rfl⟩, rfl, rfl⟩

/-- Without the records that are shown the process comes to the same. -/
theorem start_sameButErrors (input : String) :
    (w.start stamp (colorArguments color) input).2.SameButErrors
      ((w.configured color).readAll ⟨w.settings.prompt, true⟩ id (script input)) := by
  have raw : (w.prepare stamp color).console.textOnly = (w.configured color).console.textOnly := rfl
  have begins : Telling (w.configured color) (w.prepare stamp color) (fun _ => True)
      (w.configured color) (w.prepare stamp color) := ⟨[], by simp, w.prepare_tells stamp color⟩
  obtain ⟨_, _, tells⟩ := begins.readAll ⟨w.settings.prompt, true⟩ raw (script input)
  rw [start_eq]
  exact tells.toSameButErrors

/-- An input makes no difference behind the line that stops the shell. -/
theorem start_eq_of_prefix (idle : w.IsIdle) {input input' : String} {read : List String}
    (reads : (w.configured color).readItems (script input) = read.map .line)
    (stopped : ((w.configured color).runLines read).session.isStopped)
    (begins : read <+: CommandLine.inputLines input') :
    w.start stamp (colorArguments color) input' = w.start stamp (colorArguments color) input := by
  have raw : (w.prepare stamp color).console.textOnly = (w.configured color).console.textOnly := rfl
  have idle' : (w.prepare stamp color).IsIdle := idle
  -- the world of the process reads the same lines and is stopped by them
  have reads' := (w.prepare_tells stamp color).readItems_eq raw (script input)
  rw [reads] at reads'
  obtain ⟨_, tells⟩ := (w.prepare_tells stamp color).runLines raw read
  rw [← tells.session] at stopped
  have same : (w.prepare stamp color).trace ⟨w.settings.prompt, true⟩ id (script input') =
      (w.prepare stamp color).trace ⟨w.settings.prompt, true⟩ id (script input) := by
    apply trace_eq_of_prefix ⟨w.settings.prompt, true⟩ ⟨rfl, rfl⟩ idle'
    · rwa [reads', Item.lines_map_line]
    · rw [reads']
      exact begins.map _
  simp only [start_eq, readAll, same]

end

theorem readItems_script (w : World) (input : String) : ∃ read rest,
    CommandLine.inputLines input = read ++ rest ∧ w.readItems (script input) = read.map .line := by
  have front := List.prefix_iff_eq_take.1 (w.readItems_prefix (script input))
  rw [script, ← List.map_take] at front
  exact ⟨_, _, (List.take_append_drop _ _).symm, front⟩

/-- The loops with and without prompts differ in what they show. -/
theorem readAll_sameButOutput (idle : w.IsIdle) (reader reader' : Reader) (items : List Item) :
    (w.readAll reader id items).SameButOutput (w.readAll reader' id items) := by
  obtain ⟨_, same, _⟩ := course reader ⟨rfl, rfl⟩ idle items
  obtain ⟨_, same', _⟩ := course reader' ⟨rfl, rfl⟩ idle items
  exact same.trans same'.symm

/-- The loop ends with a code, whatever it reads. -/
theorem exists_exit (idle : w.IsIdle) (items : List Item) :
    ∃ code, (w.readAll reader id items).session.exit = some code := by
  obtain ⟨_, same, _⟩ := course reader ⟨rfl, rfl⟩ idle items
  rw [same.session]
  split
  case isTrue stopped => exact Option.isSome_iff_exists.1 stopped
  case isFalse => exact ⟨_, rfl⟩

/-- The world in which a process begins, with a shell that has done nothing. -/
def fresh (files : FileSystem) (here : NodeId) (cwd : String) (env : Environment)
    (console : Console) : World :=
  { files, here, session := { cwd, env }, console }

/-- A process that is started without arguments or with `--color` cuts its input into lines and
comes to the loop that reads them: it ends with the code of the loop, and in its state and with its
records. The loop reads lines up to the one that stops the shell, and an input with other lines
behind that one makes no difference to the process. If no line does, it reads the end of the input
and writes a newline. The output of the process is put together from its prompt and from what each
read of the loop writes. -/
theorem start_fresh (files : FileSystem) (here : NodeId) (cwd : String) (env : Environment)
    (console : Console) (color : Bool) (stamp input : String) :
    let process := fresh files here cwd env console
    let ended := process.start stamp (colorArguments color) input
    let prompt := (Settings.ofEnvironment env).prompt
    let shell := process.colored ((Settings.ofEnvironment env).colors || color)
    let lines := CommandLine.inputLines input
    let steps := shell.trace ⟨prompt, false⟩ id (lines.map .line)
    let final := shell.readAll ⟨prompt, false⟩ id (lines.map .line)
    let prompting := shell.readAll ⟨prompt, true⟩ id (lines.map .line)
    (∀ cut, CommandLine.IsCut input.toList cut ↔ cut = lines) ∧
    final.session.exit = some ended.1 ∧ ended.2.SharesState final ∧
    ended.2.records = final.records ∧ ended.2.terminals.out = prompting.terminals.out ∧
    ∃ read rest pieces, lines = read ++ rest ∧ Writes [] steps pieces ∧
      ended.2.terminals.out.shown = pieces.flatMap (Utf8.encode prompt ++ ·) ∧
      (∀ front, front <+: read → front ≠ read → ¬ (shell.runLines front).session.isStopped) ∧
      ((shell.runLines read).session.isStopped →
        steps.map (·.item) = read.map (some ∘ .line) ∧
        ∀ input', read <+: CommandLine.inputLines input' →
          process.start stamp (colorArguments color) input' = ended) ∧
      (¬ (shell.runLines read).session.isStopped →
        rest = [] ∧ steps.map (·.item) = read.map (some ∘ .line) ++ [none] ∧
        pieces.getLast? = some newline) := by
  intro process ended prompt shell lines steps final prompting
  have idle : shell.IsIdle := rfl
  have told : ended.2.SameButErrors prompting := process.start_sameButErrors stamp color input
  have quiet : prompting.SameButOutput final := readAll_sameButOutput idle _ _ _
  have shares := told.toSharesState.trans quiet.sharesState
  have exit : final.session.exit = some ended.1 := by
    obtain ⟨code, exit⟩ := exists_exit ⟨prompt, false⟩ idle (lines.map .line)
    have codes : ended.1 = ended.2.session.exit.getD 0 := by
      simp only [ended, start_eq]
    rw [codes, shares.session, exit, Option.getD_some]
  obtain ⟨read, rest, whole, reads⟩ := shell.readItems_script input
  obtain ⟨items, _, _⟩ := course ⟨prompt, false⟩ ⟨rfl, rfl⟩ idle (script input)
  obtain ⟨_, _, output⟩ := course ⟨prompt, true⟩ ⟨rfl, rfl⟩ idle (script input)
  have writes := writes_trace ⟨prompt, false⟩ ⟨rfl, rfl⟩ idle (script input)
  simp only [reads, Item.lines_map_line, Reader.shown_silent, List.nil_append, List.map_id',
    List.map_map] at items output writes
  refine ⟨fun cut => CommandLine.isCut_iff, exit, shares, told.records.trans quiet.records,
    told.out, read, rest, _, whole, writes, (congrArg Terminal.shown told.out).trans output, ?_,
    fun stopped => ?_, fun going => ?_⟩
  · intro front before proper
    have proper' : front.map Item.line ≠ shell.readItems (script input) := by
      intro same
      apply proper
      rw [← Item.lines_map_line front, same, reads, Item.lines_map_line]
    rw [← Item.lines_map_line front]
    exact not_isStopped_of_prefix (reads ▸ before.map _) proper'
  · rw [if_pos stopped, List.append_nil] at items
    exact ⟨items, fun _ => process.start_eq_of_prefix stamp color rfl reads stopped⟩
  · have all : shell.readItems (script input) = script input := by
      apply readItems_eq_of_not_isStopped
      rwa [reads, Item.lines_map_line]
    have none : rest = [] := by
      rw [reads, script, whole, List.map_append] at all
      simpa using all
    rw [if_neg going] at items
    exact ⟨none, items, by simp [going]⟩

end World

end LineShell
