import LineShell.Proofs.Output

/-!
# The end of a command

The files that stand in for streams are closed when a command ends, whatever became of it. So
a world between two commands is followed by one (`execute_isIdle`), and without such files a
command ends with its work (`completing_apply`).
-/

namespace LineShell

namespace World

/-- With no file open there is nothing to close. -/
theorem IsIdle.closeRedirects {w : World} (idle : w.IsIdle) : w.closeRedirects = w := by
  simp [World.closeRedirects, World.closeRedirect, idle.get]

theorem closeRedirect_redirects (w : World) (c : Channel) :
    (w.closeRedirect c).redirects = w.redirects.set c none := by
  unfold closeRedirect
  cases stands : w.redirects.get c with
  | none =>
    -- closing nothing leaves the stream as it was
    have same : w.redirects.set c none = w.redirects := by
      rw [← stands]
      cases c <;> rfl
    rw [same]
  | some file =>
    dsimp only
    cases (file.close w.files).2 with
    | none => rfl
    | some e => simp

theorem closeRedirects_isIdle (w : World) : w.closeRedirects.IsIdle := by
  unfold closeRedirects IsIdle
  rw [closeRedirect_redirects, closeRedirect_redirects]
  rfl

end World

namespace Act

variable {w : World}

/-- What is done between the opening and the closing of files is all that counts. -/
theorem completing_congr {act act' : Act Int} {w w' : World} (h : act w = act' w') :
    completing act w = completing act' w' := by
  simp only [completing, bind_apply, closing, h]

theorem completing_closeRedirects {act : Act Int} {status : Int} {w w' v : World}
    (h : act w = .ok status w') (closed : w'.closeRedirects = v) :
    completing act w = .ok status { v with session := { v.session with status } } := by
  simp [completing, closing, h, closed]

theorem exists_of_completing {act : Act Int} {status : Int} {w v : World}
    (h : completing act w = .ok status v) : ∃ done, act w = .ok status done ∧
      v = { done.closeRedirects with session := { done.closeRedirects.session with status } } := by
  cases ran : act w with
  | error fault done => simp [completing, closing, ran] at h
  | ok value done =>
    simp only [completing, bind_apply, closing, ran, remember_apply, pure_apply] at h
    cases h
    exact ⟨done, rfl, rfl⟩

/-- A command with a name does its work, and its files are closed. -/
theorem executeBy_named {command : Command} {name : String} (named : command.name = some name)
    (workers : Workers) : executeBy workers command = completing (perform workers name command) := by
  unfold executeBy
  rw [named]

theorem execute_named {command : Command} {name : String} (named : command.name = some name) :
    execute command = completing (perform .usual name command) :=
  executeBy_named named .usual

/-- Once its files are open a command goes on with its work. -/
theorem executeBy_opened {command : Command} {name : String} {opened : World}
    (named : command.name = some name) (opens : openRedirects command w = .ok none opened)
    (workers : Workers) : executeBy workers command w =
      completing (dispatch workers name command.arguments) opened := by
  rw [executeBy_named named]
  apply completing_congr
  simp [perform, opens]

/-- Without files there is nothing to close after a command. -/
theorem completing_apply {act : Act Int} {status : Int} {w w' : World} (h : act w = .ok status w')
    (idle : w'.IsIdle) :
    completing act w = .ok status { w' with session := { w'.session with status } } :=
  completing_closeRedirects h idle.closeRedirects

theorem closing_isIdle {α : Type} (act : Act α) (w : World) : ((closing act).run w).IsIdle := by
  simp only [Act.run, closing]
  cases act w with
  | ok _ w => exact w.closeRedirects_isIdle
  | error _ w => exact w.closeRedirects_isIdle

/-- The status that a command comes to is kept. -/
theorem execute_status {command : Command} {status : Int} {after : World}
    (ended : execute command w = .ok status after) : after.session.status = status := by
  unfold execute executeBy at ended
  cases named : command.name with
  | none =>
    rw [named] at ended
    cases ended
    rfl
  | some name =>
    rw [named] at ended
    simp only [completing, bind_apply] at ended
    cases ran : closing (perform .usual name command) w with
    | ok n v =>
      rw [ran] at ended
      cases ended
      rfl
    | error fault v =>
      rw [ran] at ended
      cases ended

theorem execute_isIdle (command : Command) (idle : w.IsIdle) :
    ((execute command).run w).IsIdle := by
  unfold execute executeBy
  cases command.name with
  | none => exact idle
  | some name =>
    have closed := closing_isIdle (perform .usual name command) w
    simp only [Act.run, completing, bind_apply] at closed ⊢
    cases ran : closing (perform .usual name command) w with
    | ok status after =>
      rw [ran] at closed
      exact closed
    | error fault after =>
      rw [ran] at closed
      exact closed

end Act

end LineShell
