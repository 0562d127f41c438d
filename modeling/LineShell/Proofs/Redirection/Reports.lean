import LineShell.Proofs.Execution.Closing
import LineShell.Proofs.Redirection.Lines

/-!
# Errors that are said

Where the stream for the errors takes what is written to it (`World.TakesErrors`), a report says one
line there and does nothing else (`World.Says`): not to the session, and not to the tree but for the
file that the line comes to. Nothing of it waits in a buffer then, so closing the file writes no
more.

Main statements: `report_said` and `Says.closeRedirects`.
-/

namespace LineShell

/-! ## Open files -/

namespace OpenFile

/-- Where the next write to a file puts its bytes that holds `data`. -/
def place (file : OpenFile) (data : Bytes) : Nat :=
  if file.append then data.length else file.offset

variable {file : OpenFile} {fs : FileSystem} {data : Bytes}

theorem placed_self (holds : fs.contents? file.node = some data) :
    Placed fs file.node file.append data (file.place data) (file, fs) :=
  ⟨rfl, rfl, (FileSystem.withContents_self holds).symm, rfl⟩

/-- Where nothing waits in the buffers there is nothing to write at the end. -/
theorem close_of_empty (regular : (fs.contents? file.node).isSome) (block : file.block = [])
    (text : file.text = []) : file.close fs = (fs, none) := by
  obtain ⟨data, holds⟩ := Option.isSome_iff_exists.1 regular
  rw [close_placed regular (placed_self holds), block, text, List.append_nil,
    FileSystem.overlaid_nil, FileSystem.withContents_self holds]

end OpenFile

/-! ## Worlds -/

namespace World

/-- The stream for the errors takes what is written to it: it is the terminal, a regular file or the
device that swallows everything. -/
def TakesErrors (w : World) : Prop :=
  ∀ file, w.redirects.err = some file →
    (w.files.contents? file.node).isSome ∨ w.files.node? file.node = some (.device .null)

theorem IsIdle.takesErrors {w : World} (idle : w.IsIdle) : w.TakesErrors := by
  intro file stands
  rw [idle] at stands
  cases stands

/-- One line about an error was said, and nothing else has happened. -/
inductive Says (w : World) (message : String) : World → Prop
  | onTerminal (free : w.redirects.err = none) :
      Says w message (w.onTerminal .err fun t => (t.print (w.errorLine message)).flush)
  /-- In a file the line comes behind what waited in the buffers. -/
  | inFile {file file' : OpenFile} {data : Bytes} (stands : w.redirects.err = some file)
      (holds : w.files.contents? file.node = some data) (same : file'.node = file.node)
      (emptied : file'.block = [] ∧ file'.text = []) :
      Says w message
        { w with
          files := w.files.withContents file.node (FileSystem.overlaid data (file.place data)
            (file.block ++ file.text ++ Utf8.encode (message ++ "\n")))
          redirects := w.redirects.set .err (some file') }
  | vanished {file file' : OpenFile} (stands : w.redirects.err = some file)
      (null : w.files.node? file.node = some (.device .null)) (same : file'.node = file.node) :
      Says w message { w with redirects := w.redirects.set .err (some file') }

variable {w v : World} {message : String}

/-- Closing the one file that there is leaves the tree as it is if nothing waits to be written. -/
theorem closeRedirects_of_err {file : OpenFile} (only : w.redirects = ⟨none, some file⟩)
    (closed : file.close w.files = (w.files, none)) :
    w.closeRedirects = { w with redirects := ⟨none, none⟩ } := by
  have ended : w.closeRedirect .err = { w with redirects := ⟨none, none⟩ } := by
    simp [closeRedirect, only, Both.get, closed, Both.set]
  rw [World.closeRedirects, ended]
  rfl

namespace Says

theorem session (said : w.Says message v) : v.session = w.session := by
  cases said <;> rfl

/-- The tree is the same but for what the file for the errors holds. -/
theorem files (said : w.Says message v) : v.files = w.files ∨
    ∃ file data, w.redirects.err = some file ∧ v.files = w.files.withContents file.node data := by
  cases said with
  | onTerminal => exact .inl rfl
  | inFile stands => exact .inr ⟨_, _, stands, rfl⟩
  | vanished => exact .inl rfl

/-- Closing the file for the errors writes no more. -/
theorem closeRedirects (said : w.Says message v) (free : w.redirects.out = none) :
    v.closeRedirects = { v with redirects := ⟨none, none⟩ } := by
  have only : ∀ file', w.redirects.set .err (some file') = ⟨none, some file'⟩ :=
    fun file' => congrArg (Both.mk · (some file')) free
  cases said with
  | onTerminal none =>
    have idle : w.redirects = ⟨Option.none, Option.none⟩ := congrArg₂ Both.mk free none
    have still : (w.onTerminal .err fun t => (t.print (w.errorLine message)).flush).IsIdle := idle
    rw [still.closeRedirects, ← idle]
    rfl
  | @inFile file file' data stands holds same emptied =>
    have regular : (w.files.contents? file.node).isSome := by simp [holds]
    apply closeRedirects_of_err (only file')
    refine OpenFile.close_of_empty ?_ emptied.1 emptied.2
    rw [same, FileSystem.contents?_withContents regular]
    rfl
  | @vanished file file' stands null same =>
    exact closeRedirects_of_err (only file') (OpenFile.close_null null same)

end Says

end World

namespace Act

variable {w : World}

/-- What is reported is said. -/
theorem report_said (takes : w.TakesErrors) (message : String) :
    ∃ v, report message w = .ok () v ∧ w.Says message v := by
  cases stands : w.redirects.err with
  | none => exact ⟨_, report_apply stands message, .onTerminal stands⟩
  | some file =>
    have isErr : w.redirects.get .err = some file := stands
    have written : report message w = onFile .err file (OpenFile.writeLine message) w :=
      (report_onFile isErr message).trans (writeLine_onFile isErr message)
    rw [written, onFile]
    rcases takes file stands with regular | null
    · obtain ⟨data, holds⟩ := Option.isSome_iff_exists.1 regular
      obtain ⟨⟨file', files⟩, wrote, placed, emptied⟩ :=
        OpenFile.writeLine_placed regular (OpenFile.placed_self holds) message
      obtain rfl := placed.files
      rw [wrote]
      exact ⟨_, rfl, .inFile stands holds placed.same emptied⟩
    · obtain ⟨file', wrote, same⟩ := OpenFile.writeLine_vanishes null message file rfl
      rw [wrote]
      exact ⟨_, rfl, .vanished stands null same⟩

end Act

end LineShell
