import LineShell.Proofs.ReadLoop.Script

/-!
# Whole runs of the shell

The loop that reads lines does what the fold of the lines does that it reads. The induction
over the script is `course`; it is carried by `World.SameButOutput`, since between the lines
of the loop stand the newlines of interrupts and prompts, of which the fold knows nothing.

Main statement: `readAll_runLines`.
-/

namespace LineShell

namespace World

variable (reader : Reader) {w v : World}

/-! ## The loop, one item at a time -/

theorem trace_of_isStopped (stopped : v.session.isStopped) (items : List Item) :
    v.trace reader id items = [] := by
  cases items with
  | nil => exact if_pos stopped
  | cons item items => exact if_pos stopped

theorem readAll_of_isStopped (stopped : v.session.isStopped) (items : List Item) :
    v.readAll reader id items = v := by
  simp [readAll, trace_of_isStopped reader stopped]

theorem trace_nil (going : ¬ v.session.isStopped) :
    v.trace reader id [] = [v.reading reader none] :=
  if_neg going

theorem readAll_nil (going : ¬ v.session.isStopped) :
    v.readAll reader id [] = (v.reading reader none).after := by
  simp [readAll, trace_nil reader going]

theorem trace_cons (going : ¬ v.session.isStopped) (item : Item) (items : List Item) :
    v.trace reader id (item :: items) = v.reading reader (some item) ::
      (v.reading reader (some item)).after.trace reader id items :=
  if_neg going

theorem readAll_cons (going : ¬ v.session.isStopped) (item : Item) (items : List Item) :
    v.readAll reader id (item :: items) =
      (v.reading reader (some item)).after.readAll reader id items := by
  unfold readAll
  rw [trace_cons reader going]
  cases (v.reading reader (some item)).after.trace reader id items with
  | nil => rfl
  | cons next others => simp [List.getLast?_cons]

theorem prompt_eq_of_mem_trace (v : World) (items : List Item) :
    ∀ read ∈ v.trace reader id items, read.prompt = reader.prompt := by
  induction items generalizing v with
  | nil =>
    unfold trace
    split <;> simp [reading]
  | cons item items ih =>
    unfold trace
    split
    · simp
    · intro read listed
      cases listed with
      | head => rfl
      | tail _ listed => exact ih _ read listed

/-! ## The loop and the fold -/

/-- The one item of a read that was not the end, in the loop and in the fold. -/
theorem step_item (same : v.SameButOutput w) (idle : v.IsIdle) (item : Item) : ∃ piece,
    (∀ items, w.pieces (item :: items) =
      (item, piece) :: (w.runLines (Item.lines [item])).pieces items) ∧
    let after := (v.reading reader (some item)).after
    after.IsIdle ∧ after.SameButOutput (w.runLines (Item.lines [item])) ∧
      after.terminals.out.shown = v.terminals.out.shown ++ (reader.shown ++ piece) := by
  cases item with
  | line text => exact ⟨_, fun _ => rfl, step_line reader same idle text⟩
  | interrupt => exact ⟨_, fun _ => rfl, step_interrupt reader same idle⟩

/-- The loop reads what is to be read and, if that stops nothing, the end of the input. In the
end it is where the fold is, but for the output, which is put together from the pieces. -/
theorem course (same : v.SameButOutput w) (idle : v.IsIdle) (items : List Item) :
    let read := w.readItems items
    let folded := w.runLines (Item.lines read)
    let stopped := folded.session.isStopped
    (v.trace reader id items).map (·.item) = read.map some ++ (if stopped then [] else [none]) ∧
    (v.readAll reader id items).SameButOutput (if stopped then folded else folded.ended) ∧
    (v.readAll reader id items).terminals.out.shown = v.terminals.out.shown ++
      reader.written ((w.pieces read).map (·.2) ++ (if stopped then [] else [newline])) := by
  dsimp only
  -- on the script; the loop is in `v` where the fold is in `w`
  induction items generalizing v w with
  | nil =>
    by_cases stopped : w.session.isStopped
    · have stopped' : v.session.isStopped := same.session ▸ stopped
      simp only [readItems, Item.lines_nil, runLines_nil, stopped, reduceIte,
        trace_of_isStopped reader stopped', readAll_of_isStopped reader stopped']
      exact ⟨rfl, same, by simp [pieces, Reader.written]⟩
    · have going : ¬ v.session.isStopped := same.session ▸ stopped
      obtain ⟨same', grown⟩ := step_end reader same idle
      simp only [readItems, Item.lines_nil, runLines_nil, stopped,
        trace_nil reader going, readAll_nil reader going]
      exact ⟨rfl, same', by simp [pieces, Reader.written, grown]⟩
  | cons item items ih =>
    by_cases stopped : w.session.isStopped
    · have stopped' : v.session.isStopped := same.session ▸ stopped
      simp only [readItems_of_isStopped stopped, Item.lines_nil, runLines_nil, if_pos stopped,
        trace_of_isStopped reader stopped', readAll_of_isStopped reader stopped']
      exact ⟨rfl, same, by simp [pieces, Reader.written]⟩
    · have going : ¬ v.session.isStopped := same.session ▸ stopped
      obtain ⟨piece, first, idle', same', grown⟩ := step_item reader same idle item
      obtain ⟨reads, final, output⟩ := ih same' idle'
      have folded := runLines_lines_cons w item ((w.runLines (Item.lines [item])).readItems items)
      simp only [readItems, if_neg stopped, first, folded, trace_cons reader going,
        readAll_cons reader going]
      refine ⟨?_, final, ?_⟩
      · rw [List.map_cons, reads]
        rfl
      · simp [output, grown, Reader.written]

/-- A shell that is stopped reads nothing. Any other one gives its prompt to every read and
reads the items of a script in order, up to the line that stops it; if no line does, it reads
the end of the input, writes a newline and stops with the status of the last command. In the
end it is where the fold of the lines is that were read, and its output is put together from
what each item writes by itself. Without the interrupts it comes to the same, and their
newlines are missing. -/
theorem readAll_runLines (idle : w.IsIdle) (items : List Item) :
    let readings := w.trace reader id items
    let final := w.readAll reader id items
    let quiet := w.readAll reader id (items.filter Item.isLine)
    (∀ read ∈ readings, read.prompt = reader.prompt) ∧
    (w.session.isStopped → readings = [] ∧ final = w) ∧
    (¬ w.session.isStopped → ∃ read rest ending,
      let folded := w.runLines (Item.lines read)
      items = read ++ rest ∧
      (∀ front, front <+: read → front ≠ read →
        ¬ (w.runLines (Item.lines front)).session.isStopped) ∧
      ((folded.session.isStopped ∧ readings.map (·.item) = read.map some ∧
          final.SameButOutput folded ∧ ending = []) ∨
        (¬ folded.session.isStopped ∧ rest = [] ∧
          readings.map (·.item) = read.map some ++ [none] ∧
          final.SameButOutput folded.ended ∧ ending = [newline])) ∧
      final.terminals.out.shown = w.terminals.out.shown ++
        reader.written ((w.pieces read).map (·.2) ++ ending) ∧
      quiet.SameButOutput final ∧
      quiet.terminals.out.shown = w.terminals.out.shown ++
        reader.written (((w.pieces read).filter (·.1.isLine)).map (·.2) ++ ending)) := by
  intro readings final quiet
  refine ⟨prompt_eq_of_mem_trace reader w items, fun stopped => ?_, fun _ => ?_⟩
  · exact ⟨trace_of_isStopped reader stopped items, readAll_of_isStopped reader stopped items⟩
  obtain ⟨reads, same, output⟩ := course reader ⟨rfl, rfl⟩ idle items
  -- without the interrupts the fold is the same, so both runs are where the fold is
  obtain ⟨_, quietSame, quietOutput⟩ :=
    course reader ⟨rfl, rfl⟩ idle (items.filter Item.isLine)
  rw [readItems_filter_isLine, Item.lines_filter_isLine] at quietSame quietOutput
  rw [pieces_filter_isLine] at quietOutput
  obtain ⟨rest, whole⟩ := w.readItems_prefix items
  refine ⟨w.readItems items, rest, _, whole.symm, fun _ => not_isStopped_of_prefix, ?_, output,
    quietSame.trans same.symm, quietOutput⟩
  by_cases stopped : (w.runLines (Item.lines (w.readItems items))).session.isStopped
  · left
    simp only [if_pos stopped, List.append_nil] at reads same ⊢
    exact ⟨stopped, reads, same, trivial⟩
  · right
    have all := readItems_eq_of_not_isStopped stopped
    have none : rest = [] := by
      rw [all] at whole
      exact List.append_right_eq_self.1 whole
    simp only [if_neg stopped] at reads same ⊢
    exact ⟨stopped, none, reads, same, trivial⟩

/-- A shell in the root of a tree that holds nothing else. -/
def bare : World :=
  { files := ⟨#[.directory FileSystem.fullAccess FileSystem.root "" []]⟩
    here := FileSystem.root
    session := { cwd := "/", env := [] } }

theorem readAll_runLines_bare : bare.IsIdle ∧ ¬ bare.session.isStopped ∧
    ∃ read rest ending, [.interrupt, .line "exit 3", .line "pwd"] = read ++ rest ∧
      (bare.readAll ⟨"$ ", false⟩ id [.interrupt, .line "exit 3", .line "pwd"]).terminals.out.shown =
        bare.terminals.out.shown ++
          Reader.written ⟨"$ ", false⟩ ((bare.pieces read).map (·.2) ++ ending) := by
  have idle : bare.IsIdle := rfl
  have going : ¬ bare.session.isStopped := by decide
  obtain ⟨read, rest, ending, whole, _, _, output, _⟩ :=
    (readAll_runLines ⟨"$ ", false⟩ idle [.interrupt, .line "exit 3", .line "pwd"]).2.2 going
  exact ⟨idle, going, read, rest, ending, whole, output⟩

end World

end LineShell
