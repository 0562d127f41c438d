import LineShell.Proofs.Output

/-!
# Two runs in step

A statement about two runs of the same command is proved by a relation between their worlds
that no action of the shell breaks. `Act.InStep R` says of two actions that they do not: from
worlds that correspond they come to the same value, or to the same fault, and the worlds still
correspond.

The rules follow the ways in which actions are put together (`InStep.bind`,
`InStep.get_bind`, `InStep.tryCatch`). An action that asks about its world needs an answer
that is the same on both sides; after that it is two actions that differ by what they were
told.
-/

namespace LineShell

variable {α β : Type}

/-- Two runs come to the same value or the same fault, in worlds that correspond. -/
inductive SameOutcome (R : World → World → Prop) :
    EStateM.Result Fault World α → EStateM.Result Fault World α → Prop
  | ok (value : α) {w v : World} (related : R w v) : SameOutcome R (.ok value w) (.ok value v)
  | error (fault : Fault) {w v : World} (related : R w v) :
      SameOutcome R (.error fault w) (.error fault v)

namespace SameOutcome

variable {R S : World → World → Prop}

theorem mono (weaker : ∀ w v, R w v → S w v) {r r' : EStateM.Result Fault World α}
    (h : SameOutcome R r r') : SameOutcome S r r' := by
  cases h with
  | ok value related => exact .ok value (weaker _ _ related)
  | error fault related => exact .error fault (weaker _ _ related)

/-- A run that ends well is accompanied by one that ends with the same value. -/
theorem of_ok {value : α} {w : World} {r : EStateM.Result Fault World α}
    (h : SameOutcome R (.ok value w) r) : ∃ v, r = .ok value v ∧ R w v := by
  cases h with
  | ok _ related => exact ⟨_, rfl, related⟩

/-- And the other way round. -/
theorem of_other_ok {value : α} {v : World} {r : EStateM.Result Fault World α}
    (h : SameOutcome R r (.ok value v)) : ∃ w, r = .ok value w ∧ R w v := by
  cases h with
  | ok _ related => exact ⟨_, rfl, related⟩

/-- What comes next starts where the first run has come to. -/
theorem bind_of_ok {act act' : Act α} {next next' : α → Act β} {w v : World}
    (first : SameOutcome R (act w) (act' v))
    (rest : ∀ value w' v', act w = .ok value w' → R w' v' →
      SameOutcome R (next value w') (next' value v')) :
    SameOutcome R ((act >>= next) w) ((act' >>= next') v) := by
  rw [Act.bind_apply, Act.bind_apply]
  generalize act w = result at first rest ⊢
  generalize act' v = result' at first ⊢
  cases first with
  | ok value related => exact rest value _ _ rfl related
  | error fault related => exact .error fault related

theorem bind {act act' : Act α} {next next' : α → Act β} {w v : World}
    (first : SameOutcome R (act w) (act' v))
    (rest : ∀ value w v, R w v → SameOutcome R (next value w) (next' value v)) :
    SameOutcome R ((act >>= next) w) ((act' >>= next') v) :=
  first.bind_of_ok fun value w v _ => rest value w v

/-- However two runs end, their worlds correspond. -/
theorem run {act act' : Act α} {w v : World} (h : SameOutcome R (act w) (act' v)) :
    R (act.run w) (act'.run v) := by
  simp only [Act.run]
  generalize act w = result at h ⊢
  generalize act' v = result' at h ⊢
  cases h with
  | ok _ related => exact related
  | error _ related => exact related

/-- A fact about the world of the one run, where it is known how that run ends. -/
theorem and_of_ok {P : World → Prop} {value : α} {w : World} {r r' : EStateM.Result Fault World α}
    (h : SameOutcome R r r') (ended : r = .ok value w) (holds : P w) :
    SameOutcome (fun w v => R w v ∧ P w) r r' := by
  subst ended
  cases h with
  | ok _ related => exact .ok value ⟨related, holds⟩

end SameOutcome

namespace Act

/-- From worlds that correspond two actions come to the same, in worlds that correspond. -/
def InStep (R : World → World → Prop) (act act' : Act α) : Prop :=
  ∀ ⦃w v : World⦄, R w v → SameOutcome R (act w) (act' v)

/-- An action whose runs from worlds that correspond are in step. -/
abbrev Respects (R : World → World → Prop) (act : Act α) : Prop :=
  InStep R act act

namespace InStep

variable {R : World → World → Prop}

theorem pure (value : α) : Respects R (Pure.pure value) :=
  fun _ _ related => .ok value related

theorem throw (fault : Fault) : Respects R (MonadExcept.throw fault : Act α) :=
  fun _ _ related => .error fault related

theorem bind {act act' : Act α} {next next' : α → Act β} (first : InStep R act act')
    (rest : ∀ value, InStep R (next value) (next' value)) :
    InStep R (act >>= next) (act' >>= next') := by
  intro w v related
  exact (first related).bind fun value _ _ related' => rest value related'

/-- What an action does with its own world may depend on the world as far as both worlds
agree. -/
theorem get_bind {next next' : World → Act β}
    (rest : ∀ w v, R w v → InStep R (next w) (next' v)) :
    InStep R (get >>= next) (get >>= next') :=
  fun w v related => rest w v related related

theorem modify_of {f f' : World → World} (kept : ∀ w v, R w v → R (f w) (f' v)) :
    InStep R (modify f) (modify f') := by
  intro w v related
  rw [modify_apply, modify_apply]
  exact .ok _ (kept w v related)

theorem tryCatch {act act' : Act α} {handle handle' : Fault → Act α} (tried : InStep R act act')
    (handled : ∀ fault, InStep R (handle fault) (handle' fault)) :
    InStep R (MonadExcept.tryCatch act handle) (MonadExcept.tryCatch act' handle') := by
  intro w v related
  -- the handler goes on from the worlds in which the fault came up
  have ended := tried related
  rw [tryCatch_apply, tryCatch_apply]
  generalize act w = result at ended ⊢
  generalize act' v = result' at ended ⊢
  cases ended with
  | ok value related' => exact .ok value related'
  | error fault related' => exact handled fault related'

theorem run {act act' : Act α} (h : InStep R act act') {w v : World} (related : R w v) :
    R (act.run w) (act'.run v) :=
  (h related).run

end InStep

end Act

end LineShell
