import LineShell.Proofs.FileSystem.Steps
import LineShell.Proofs.Output

/-!
# The steps of one run

`World.Step moves` is one change of a world, where `moves` says how the session may change.
`Act.Takes step` says of an action that all its runs go by steps of a relation, also those
that stop with a fault. What no step breaks holds after every run, then, and what the steps do
to the session and to the files is told apart (`Steps.session`, `Steps.files`).

The rules follow the ways in which actions are put together (`Takes.bind`, `Takes.tryCatch`).
-/

namespace LineShell

open Relation (ReflTransGen)

namespace Act

variable {ε σ α β : Type}

/-- The state in which a run ended, well or not. -/
def state : EStateM.Result ε σ α → σ
  | .ok _ s => s
  | .error _ s => s

theorem run_eq_state (act : Act α) (w : World) : act.run w = state (act w) := by
  unfold run state
  cases act w <;> rfl

/-- All runs of an action go by steps of a relation. -/
def Takes (step : σ → σ → Prop) (act : EStateM ε σ α) : Prop :=
  ∀ s, ReflTransGen step s (state (act s))

namespace Takes

variable {step : σ → σ → Prop}

theorem pure (a : α) : Takes step (Pure.pure a : EStateM ε σ α) :=
  fun _ => .refl

theorem throw (e : ε) : Takes step (MonadExcept.throw e : EStateM ε σ α) :=
  fun _ => .refl

theorem get : Takes step (MonadState.get : EStateM ε σ σ) :=
  fun _ => .refl

theorem modify {f : σ → σ} (steps : ∀ s, ReflTransGen step s (f s)) :
    Takes step (modify f : EStateM ε σ PUnit) :=
  steps

theorem bind {act : EStateM ε σ α} {next : α → EStateM ε σ β} (first : Takes step act)
    (rest : ∀ a, Takes step (next a)) : Takes step (act >>= next) := by
  intro s
  have before := first s
  rw [bind_apply]
  cases ran : act s with
  | ok a t =>
    rw [ran] at before
    exact before.trans (rest a t)
  | error e t =>
    rw [ran] at before
    exact before

theorem tryCatch {act : EStateM ε σ α} {handle : ε → EStateM ε σ α} (tried : Takes step act)
    (handled : ∀ e, Takes step (handle e)) : Takes step (MonadExcept.tryCatch act handle) := by
  intro s
  have before := tried s
  rw [tryCatch_apply]
  cases ran : act s with
  | ok a t =>
    rw [ran] at before
    exact before
  | error e t =>
    rw [ran] at before
    exact before.trans (handled e t)

theorem mono {step' : σ → σ → Prop} {act : EStateM ε σ α} (h : Takes step act)
    (weaker : ∀ s t, step s t → step' s t) : Takes step' act :=
  fun s => ReflTransGen.mono weaker _ _ (h s)

end Takes

end Act

namespace World

/-- One change of a world. The session changes only as `moves` allows. -/
inductive Step (moves : Session → Session → Prop) : World → World → Prop
  | shown (w : World) (terminals : Both Terminal) : Step moves w { w with terminals }
  | noted (w : World) (records : List Log.Record) : Step moves w { w with records }
  | redirected (w : World) (redirects : Both (Option OpenFile)) :
      Step moves w { w with redirects }
  | edited {w : World} {files : FileSystem} (edit : w.files.Edit files) :
      Step moves w { w with files }
  | moved {w : World} {session : Session} (move : moves w.session session) :
      Step moves w { w with session }

/-- Any number of changes. -/
abbrev Steps (moves : Session → Session → Prop) : World → World → Prop :=
  ReflTransGen (Step moves)

variable {moves : Session → Session → Prop} {w v : World}

theorem Step.mono {moves' : Session → Session → Prop} (step : Step moves w v)
    (weaker : ∀ s t, moves s t → moves' s t) : Step moves' w v := by
  cases step with
  | shown terminals => exact .shown w terminals
  | noted records => exact .noted w records
  | redirected redirects => exact .redirected w redirects
  | edited edit => exact .edited edit
  | moved move => exact .moved (weaker _ _ move)

/-- The session goes by moves alone. -/
theorem Steps.session (steps : Steps moves w v) : ReflTransGen moves w.session v.session := by
  induction steps with
  | refl => exact .refl
  | tail _ step ih =>
    cases step with
    | shown => exact ih
    | noted => exact ih
    | redirected => exact ih
    | edited => exact ih
    | moved move => exact ih.tail move

/-- The tree goes by edits alone. -/
theorem Steps.files (steps : Steps moves w v) : w.files.Edits v.files := by
  induction steps with
  | refl => exact .refl
  | tail _ step ih =>
    cases step with
    | shown => exact ih
    | noted => exact ih
    | redirected => exact ih
    | edited edit => exact ih.tail edit
    | moved => exact ih

theorem edited_steps {files : FileSystem} (edits : w.files.Edits files) :
    Steps moves w { w with files } := by
  induction edits with
  | refl => exact .refl
  | tail _ edit ih => exact ih.tail (.edited edit)

theorem onTerminal_steps (w : World) (c : Channel) (f : Terminal → Terminal) :
    Steps moves w (w.onTerminal c f) :=
  .single (.shown w _)

theorem flushTerminals_steps (w : World) : Steps moves w w.flushTerminals :=
  .single (.shown w _)

theorem note_steps (w : World) (level : Log.Level) (source : Log.Source) (message : String) :
    Steps moves w (w.note level source message) := by
  obtain ⟨err, _, same, _⟩ := w.note_eq level source message
  rw [same]
  have noted : Steps moves w { w with records := ⟨level, source, message⟩ :: w.records } :=
    .single (.noted w _)
  exact noted.tail (.shown _ { w.terminals with err })

end World

end LineShell
