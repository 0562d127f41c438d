import LineShell.Proofs.ReadLoop.Transcript

/-!
# Reading an item of a script

A script of lines and interrupts is read up to the line that stops the shell
(`World.readItems`). The loop that reads it is set against the fold of the lines
(`World.runLines`): the worlds of both differ in the standard output only
(`World.SameButOutput`), and reading an item keeps them so.

Main statements: `step_line`, `step_interrupt` and `step_end`.
-/

namespace LineShell

open Act

/-! ## The items that are read -/

namespace World

/-- The items that are read: none after the line that stops the shell. -/
def readItems (w : World) : List Item → List Item
  | [] => []
  | item :: items =>
    if w.session.isStopped then []
    else item :: (w.runLines (Item.lines [item])).readItems items

variable {w v : World} {items : List Item}

theorem readItems_of_isStopped (stopped : w.session.isStopped) : w.readItems items = [] := by
  cases items with
  | nil => rfl
  | cons item items => exact if_pos stopped

theorem readItems_prefix (w : World) (items : List Item) : w.readItems items <+: items := by
  induction items generalizing w with
  | nil => exact List.prefix_rfl
  | cons item items ih =>
    unfold readItems
    split
    · exact List.nil_prefix
    · exact (List.prefix_cons_inj item).2 (ih _)

theorem runLines_lines_cons (w : World) (item : Item) (items : List Item) :
    w.runLines (Item.lines (item :: items)) =
      (w.runLines (Item.lines [item])).runLines (Item.lines items) := by
  cases item <;> rfl

/-- Before the last item that is read the shell is not stopped. -/
theorem not_isStopped_of_prefix {front : List Item} (before : front <+: w.readItems items)
    (proper : front ≠ w.readItems items) :
    ¬ (w.runLines (Item.lines front)).session.isStopped := by
  induction items generalizing w front with
  | nil => exact absurd (List.prefix_nil.1 before) proper
  | cons item items ih =>
    unfold readItems at before proper
    split at before
    case isTrue stopped =>
      rw [if_pos stopped] at proper
      exact absurd (List.prefix_nil.1 before) proper
    case isFalse going =>
      rw [if_neg going] at proper
      cases front with
      | nil => exact going
      | cons first front =>
        obtain ⟨rfl, before⟩ := List.cons_prefix_cons.1 before
        rw [runLines_lines_cons]
        exact ih before fun same => proper (congrArg _ same)

/-- If no line stops the shell, all items are read. -/
theorem readItems_eq_of_not_isStopped
    (going : ¬ (w.runLines (Item.lines (w.readItems items))).session.isStopped) :
    w.readItems items = items := by
  induction items generalizing w with
  | nil => rfl
  | cons item items ih =>
    by_cases stopped : w.session.isStopped
    · rw [readItems_of_isStopped stopped] at going
      exact absurd stopped going
    · simp only [readItems, if_neg stopped] at going ⊢
      rw [runLines_lines_cons] at going
      rw [ih going]

/-- Without the interrupts the same lines are read. -/
theorem readItems_filter_isLine (w : World) (items : List Item) :
    w.readItems (items.filter Item.isLine) = (w.readItems items).filter Item.isLine := by
  induction items generalizing w with
  | nil => rfl
  | cons item items ih =>
    by_cases stopped : w.session.isStopped
    · simp [readItems_of_isStopped stopped]
    · cases item with
      | line text => simp [readItems, List.filter_cons, stopped, ih]
      | interrupt => simp [readItems, stopped, ih]

/-! ## One read -/

/-- Worlds that differ in nothing but what the standard output shows, and in what waits in the
buffers of the terminals. -/
structure SameButOutput (v w : World) : Prop where
  world : v.cleared = w.cleared
  errors : v.terminals.err.shown = w.terminals.err.shown

namespace SameButOutput

theorem symm (same : v.SameButOutput w) : w.SameButOutput v :=
  ⟨same.world.symm, same.errors.symm⟩

theorem trans {u : World} (same : u.SameButOutput v) (same' : v.SameButOutput w) :
    u.SameButOutput w :=
  ⟨same.world.trans same'.world, same.errors.trans same'.errors⟩

theorem session (same : v.SameButOutput w) : v.session = w.session :=
  session_eq_of_cleared_eq same.world

theorem sharesState (same : v.SameButOutput w) : v.SharesState w where
  session := same.session
  files := by simpa [cleared] using congrArg World.files same.world
  here := by simpa [cleared] using congrArg World.here same.world
  redirects := by simpa [cleared] using congrArg World.redirects same.world

theorem records (same : v.SameButOutput w) : v.records = w.records := by
  simpa [cleared] using congrArg World.records same.world

theorem after (same : v.SameButOutput w) (line : String) :
    (v.after line).SameButOutput (w.after line) := by
  refine ⟨cleared_after_congr same.world line, ?_⟩
  have grown := v.shown_after line .err
  have grown' := w.shown_after line .err
  simp only [Both.get] at grown grown'
  rw [grown, grown', same.world, same.errors]

end SameButOutput

end World

/-- What a reader shows at every read. -/
def Reader.shown (reader : Reader) : Bytes :=
  if reader.shows then Utf8.encode reader.prompt else []

@[simp] theorem Reader.shown_silent (prompt : String) : Reader.shown ⟨prompt, false⟩ = [] := rfl

@[simp] theorem Reader.shown_prompting (prompt : String) :
    Reader.shown ⟨prompt, true⟩ = Utf8.encode prompt := rfl

/-- What is shown after reads of which each writes a piece. -/
def Reader.written (reader : Reader) (pieces : List Bytes) : Bytes :=
  pieces.flatMap (reader.shown ++ ·)

namespace World

variable (reader : Reader) {w v : World}

theorem showPrompt_apply (idle : v.IsIdle) : ∃ after, reader.showPrompt v = .ok () after ∧
    after.IsIdle ∧ after.SameButOutput v ∧
    after.terminals.out.shown = v.terminals.out.shown ++ reader.shown := by
  unfold Reader.showPrompt Reader.shown
  by_cases shows : reader.shows
  · have still : (v.onTerminal .out (·.print (Utf8.encode reader.prompt))).IsIdle := idle
    simp only [if_pos shows, bind_apply, print_apply (idle.get .out), flush_apply (still.get .out)]
    exact ⟨_, rfl, still, ⟨rfl, rfl⟩, by simp [Both.set, Both.get]⟩
  · simp only [if_neg shows]
    exact ⟨v, rfl, idle, ⟨rfl, rfl⟩, by simp⟩

/-- The world after the input has ended. -/
def ended (w : World) : World :=
  { w with session := { w.session with exit := some w.session.status } }

theorem step_line (same : v.SameButOutput w) (idle : v.IsIdle) (text : String) :
    let after := (v.reading reader (some (.line text))).after
    after.IsIdle ∧ after.SameButOutput (w.after text) ∧
      after.terminals.out.shown = v.terminals.out.shown ++
        (reader.shown ++ (w.cleared.after text).terminals.out.shown) := by
  -- the line is run in the world of the prompt, which differs from `v` in the output only
  obtain ⟨prompted, shown, idle', same', grown⟩ := showPrompt_apply reader idle
  have reached : (v.reading reader (some (.line text))).after = prompted.after text := by
    simp [reading, readStep, Act.run, shown, respond, World.after]
  have both := same'.trans same
  have added := prompted.shown_after text .out
  simp only [Both.get] at added
  rw [reached]
  refine ⟨after_isIdle idle' text, both.after text, ?_⟩
  rw [added, grown, both.world, List.append_assoc]

theorem step_interrupt (same : v.SameButOutput w) (idle : v.IsIdle) :
    let after := (v.reading reader (some .interrupt)).after
    after.IsIdle ∧ after.SameButOutput w ∧
      after.terminals.out.shown = v.terminals.out.shown ++ (reader.shown ++ newline) := by
  obtain ⟨prompted, shown, idle', same', grown⟩ := showPrompt_apply reader idle
  have reached : (v.reading reader (some .interrupt)).after =
      prompted.onTerminal .out (·.print newline) := by
    simp [reading, readStep, Act.run, shown, respond, print_apply (idle'.get .out), newline]
  have both := same'.trans same
  rw [reached]
  refine ⟨idle', ⟨both.world, both.errors⟩, ?_⟩
  simp [Both.set, Both.get, grown]

theorem step_end (same : v.SameButOutput w) (idle : v.IsIdle) :
    let after := (v.reading reader none).after
    after.SameButOutput w.ended ∧
      after.terminals.out.shown = v.terminals.out.shown ++ (reader.shown ++ newline) := by
  obtain ⟨prompted, shown, idle', same', grown⟩ := showPrompt_apply reader idle
  have reached : (v.reading reader none).after =
      (prompted.onTerminal .out (·.print newline)).ended := by
    simp [reading, readStep, Act.run, shown, respond, print_apply (idle'.get .out), newline, ended]
  have both := same'.trans same
  have worlds : prompted.ended.cleared = w.ended.cleared := congrArg ended both.world
  rw [reached]
  refine ⟨⟨worlds, both.errors⟩, ?_⟩
  simp [ended, Both.set, Both.get, grown]

end World

end LineShell
