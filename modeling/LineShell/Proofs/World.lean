import LineShell.Output
import LineShell.ReadLoop

/-!
# What the simplest actions do

Equations for running an action (`bind_apply` and its companions) and for the world after
the primitive ones: a record that is kept (`note`), and printing to a terminal.

A record changes nothing but the log and, where records are shown, the standard error
(`World.note_eq`).
-/

namespace LineShell

/-! ## Running actions -/

namespace Act

variable {ε σ α β : Type}

@[simp] theorem pure_apply (a : α) (s : σ) : (pure a : EStateM ε σ α) s = .ok a s := rfl

@[simp] theorem bind_apply (act : EStateM ε σ α) (next : α → EStateM ε σ β) (s : σ) :
    (act >>= next) s = match act s with
      | .ok a s => next a s
      | .error e s => .error e s := rfl

@[simp] theorem map_apply (f : α → β) (act : EStateM ε σ α) (s : σ) :
    (f <$> act) s = match act s with
      | .ok a s => .ok (f a) s
      | .error e s => .error e s := rfl

@[simp] theorem get_apply (s : σ) : (get : EStateM ε σ σ) s = .ok s s := rfl

@[simp] theorem set_apply (s t : σ) : (set t : EStateM ε σ PUnit) s = .ok ⟨⟩ t := rfl

@[simp] theorem modify_apply (f : σ → σ) (s : σ) :
    (modify f : EStateM ε σ PUnit) s = .ok ⟨⟩ (f s) := rfl

@[simp] theorem throw_apply (e : ε) (s : σ) : (throw e : EStateM ε σ α) s = .error e s := rfl

theorem discard_apply (act : EStateM ε σ α) (s : σ) :
    (discard act) s = match act s with
      | .ok _ s => .ok ⟨⟩ s
      | .error e s => .error e s := rfl

theorem tryCatch_apply (act : EStateM ε σ α) (handle : ε → EStateM ε σ α) (s : σ) :
    (tryCatch act handle) s = match act s with
      | .ok a s => .ok a s
      | .error e s => handle e s := by
  change EStateM.tryCatch act handle s = _
  unfold EStateM.tryCatch
  cases act s <;> rfl

@[simp] theorem note_apply (level : Log.Level) (source : Log.Source) (message : String)
    (w : World) : note level source message w = .ok () (w.note level source message) := rfl

@[simp] theorem remember_apply (f : Session → Session) (w : World) :
    remember f w = .ok () { w with session := f w.session } := rfl

/-- Whether an action comes to a value can be tried. -/
instance isOkDecidable [DecidableEq ε] [DecidableEq σ] [DecidableEq α] (r : EStateM.Result ε σ α)
    (a : α) (s : σ) : Decidable (r = .ok a s) :=
  match r with
  | .ok b t => decidable_of_iff (b = a ∧ t = s) (by simp)
  | .error _ _ => isFalse nofun

instance isErrorDecidable [DecidableEq ε] [DecidableEq σ] (r : EStateM.Result ε σ α) (e : ε)
    (s : σ) : Decidable (r = .error e s) :=
  match r with
  | .ok _ _ => isFalse nofun
  | .error e' t => decidable_of_iff (e' = e ∧ t = s) (by simp)

end Act

/-! ## Streams -/

namespace Both

variable {α : Type} {c d : Channel}

theorem set_set (b : Both α) (c : Channel) (a a' : α) : (b.set c a).set c a' = b.set c a' := by
  cases c <;> rfl

/-- What a stream has after one of the streams was given something. -/
theorem get_set_eq_some {b : Both (Option α)} {a a' : α}
    (h : (b.set c (some a)).get d = some a') : d = c ∧ a = a' ∨ d ≠ c ∧ b.get d = some a' := by
  by_cases same : d = c
  · subst same
    exact .inl ⟨rfl, by simpa using h⟩
  · exact .inr ⟨same, by simpa [same] using h⟩

end Both

/-! ## Records -/

namespace World

variable (w : World) (level : Log.Level) (source : Log.Source) (message : String)

/-- All that a record changes. The standard error shows more only where records are shown. -/
theorem note_eq : ∃ err shown,
    w.note level source message =
      { w with
        records := ⟨level, source, message⟩ :: w.records
        terminals := { w.terminals with err } } ∧
    err.shown = w.terminals.err.shown ++ shown ∧
    (w.echo = none → err = w.terminals.err ∧ shown = []) := by
  cases shows : w.echo with
  | none => exact ⟨w.terminals.err, [], by simp [note, shows]⟩
  | some echo =>
    by_cases enough : echo.least ≤ level.number
    · let line := Utf8.encode (Log.Record.line echo.stamp ⟨level, source, message⟩)
      refine ⟨(w.terminals.err.print line).flush, line, ?_, by simp, nofun⟩
      simp [note, shows, enough, onTerminal, Both.set, Both.get, line]
    · exact ⟨w.terminals.err, [], by simp [note, shows, enough]⟩

@[simp] theorem note_records :
    (w.note level source message).records = ⟨level, source, message⟩ :: w.records := by
  obtain ⟨_, _, same, _⟩ := w.note_eq level source message
  rw [same]

@[simp] theorem note_files : (w.note level source message).files = w.files := by
  obtain ⟨_, _, same, _⟩ := w.note_eq level source message
  rw [same]

@[simp] theorem note_here : (w.note level source message).here = w.here := by
  obtain ⟨_, _, same, _⟩ := w.note_eq level source message
  rw [same]

@[simp] theorem note_session : (w.note level source message).session = w.session := by
  obtain ⟨_, _, same, _⟩ := w.note_eq level source message
  rw [same]

@[simp] theorem note_console : (w.note level source message).console = w.console := by
  obtain ⟨_, _, same, _⟩ := w.note_eq level source message
  rw [same]

@[simp] theorem note_redirects : (w.note level source message).redirects = w.redirects := by
  obtain ⟨_, _, same, _⟩ := w.note_eq level source message
  rw [same]

@[simp] theorem note_echo : (w.note level source message).echo = w.echo := by
  obtain ⟨_, _, same, _⟩ := w.note_eq level source message
  rw [same]

@[simp] theorem note_out : (w.note level source message).terminals.out = w.terminals.out := by
  obtain ⟨_, _, same, _⟩ := w.note_eq level source message
  rw [same]

/-- A record adds to what the standard error shows, and nothing if records are not shown. -/
theorem note_err : ∃ shown, (w.echo = none → shown = []) ∧
    (w.note level source message).terminals.err.shown = w.terminals.err.shown ++ shown := by
  obtain ⟨err, shown, same, grown, quiet⟩ := w.note_eq level source message
  exact ⟨shown, fun none => (quiet none).2, by rw [same, grown]⟩

end World

/-- Cutting a line into the words of a command leaves nothing but records. -/
theorem Act.parseLine_apply (line : String) (w : World) : ∃ after,
    Act.parseLine line w =
      .ok ((Command.ofTokens (Token.tokenize line)).map Command.meant) after ∧
    after.session = w.session ∧ after.files = w.files ∧ after.redirects = w.redirects := by
  unfold parseLine noteOpenQuote
  cases Token.openQuote line with
  | none => exact ⟨_, rfl, by simp, by simp, by simp⟩
  | some q => exact ⟨_, rfl, by simp, by simp, by simp⟩

end LineShell
