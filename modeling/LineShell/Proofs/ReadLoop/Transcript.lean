import LineShell.Proofs.ReadLoop.Lines

/-!
# What lines do and write

`World.runLines` carries lines out one after the other, with no reader around them, and
`World.pieces` says what each item of a script writes to the standard output: an interrupt a
newline, and a line what it writes in a world whose terminals have shown nothing.

Main statements: a line adds its own piece to what is shown and does nothing else that
depends on the terminals (`shown_after`, `cleared_after`), and the pieces of the lines are the
same without the interrupts between them (`pieces_filter_isLine`).
-/

namespace LineShell

namespace Item

/-- The text of a line. -/
def line? : Item → Option String
  | .line text => some text
  | .interrupt => none

/-- The lines among items. -/
def lines (items : List Item) : List String :=
  items.filterMap line?

/-- Whether an item is a line. -/
def isLine (item : Item) : Bool :=
  item.line?.isSome

@[simp] theorem lines_nil : lines [] = [] := rfl

@[simp] theorem lines_line (text : String) (items : List Item) :
    lines (.line text :: items) = text :: lines items := rfl

@[simp] theorem lines_interrupt (items : List Item) :
    lines (.interrupt :: items) = lines items := rfl

@[simp] theorem lines_map_line (texts : List String) : lines (texts.map .line) = texts := by
  induction texts with
  | nil => rfl
  | cons text texts ih => exact congrArg _ ih

@[simp] theorem isLine_line (text : String) : (Item.line text).isLine = true := rfl

@[simp] theorem isLine_interrupt : Item.interrupt.isLine = false := rfl

end Item

/-- What a newline is written as. -/
def newline : Bytes :=
  Utf8.encode "\n"

namespace World

/-- The world after a line. -/
def after (w : World) (line : String) : World :=
  (Act.runLine line).run w

/-- The world after lines that are carried out one after the other. -/
def runLines (w : World) (lines : List String) : World :=
  lines.foldl after w

/-- The world with terminals that have shown nothing. -/
def cleared (w : World) : World :=
  { w with terminals := ⟨{}, {}⟩ }

/-- What the items of a script write to the standard output, item by item. -/
def pieces (w : World) : List Item → List (Item × Bytes)
  | [] => []
  | .line text :: items =>
    (.line text, (w.cleared.after text).terminals.out.shown) :: (w.after text).pieces items
  | .interrupt :: items => (.interrupt, newline) :: w.pieces items

variable {w v : World}

@[simp] theorem runLines_nil : w.runLines [] = w := rfl

@[simp] theorem runLines_cons (line : String) (lines : List String) :
    w.runLines (line :: lines) = (w.after line).runLines lines := rfl

@[simp] theorem cleared_onTerminal (c : Channel) (f : Terminal → Terminal) :
    (w.onTerminal c f).cleared = w.cleared := rfl

theorem session_eq_of_cleared_eq (same : v.cleared = w.cleared) : v.session = w.session := by
  have sessions := congrArg World.session same
  exact sessions

theorem Alike.cleared_eq {past past' : Both Bytes} (alike : w.Alike past past' v) :
    v.cleared = w.cleared := by
  obtain ⟨_, rfl, _⟩ := alike
  rfl

theorem alike_cleared (w : World) : w.Alike w.shown ⟨[], []⟩ w.cleared := by
  refine ⟨⟨{}, {}⟩, rfl, fun c => ⟨[], ?_, ?_⟩⟩
  · rw [shown_get, List.append_nil]
  · cases c <;> rfl

/-! ## One line -/

theorem after_isIdle (idle : w.IsIdle) (line : String) : (w.after line).IsIdle :=
  Act.runLine_isIdle line idle

theorem alike_after (w : World) (line : String) :
    (w.after line).Alike w.shown ⟨[], []⟩ (w.cleared.after line) :=
  (Act.runLine_respects line).run w.alike_cleared

/-- A line adds to what a terminal shows what it writes where nothing was shown before. -/
theorem shown_after (w : World) (line : String) (c : Channel) :
    ((w.after line).terminals.get c).shown =
      (w.terminals.get c).shown ++ ((w.cleared.after line).terminals.get c).shown := by
  obtain ⟨terminals, same, grown⟩ := w.alike_after line
  obtain ⟨more, shown, shown'⟩ := grown c
  have none : (⟨[], []⟩ : Both Bytes).get c = [] := by cases c <;> rfl
  rw [same, shown, shown_get]
  simp [shown', none]

/-- Apart from the terminals, a line does what it does where nothing was shown before. -/
theorem cleared_after (w : World) (line : String) :
    (w.cleared.after line).cleared = (w.after line).cleared :=
  (w.alike_after line).cleared_eq

theorem cleared_after_congr (same : v.cleared = w.cleared) (line : String) :
    (v.after line).cleared = (w.after line).cleared := by
  rw [← cleared_after v, ← cleared_after w, same]

/-! ## Many lines -/

/-- The pieces of the lines do not depend on the interrupts between them. -/
theorem pieces_filter_isLine (w : World) (items : List Item) :
    w.pieces (items.filter Item.isLine) = (w.pieces items).filter (·.1.isLine) := by
  induction items generalizing w with
  | nil => rfl
  | cons item items ih =>
    cases item with
    | line text => simp [pieces, List.filter_cons, ih]
    | interrupt => simp [pieces, ih]

end World

theorem Item.lines_filter_isLine (items : List Item) :
    lines (items.filter isLine) = lines items := by
  induction items with
  | nil => rfl
  | cons item items ih =>
    cases item with
    | line text => simp [List.filter_cons, ih]
    | interrupt => simp [ih]

end LineShell
