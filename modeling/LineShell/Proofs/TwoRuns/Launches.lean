import LineShell.Proofs.TwoRuns.Builtins

/-!
# Launches in two runs

What a launch comes to depends on the program that is found, on the session and on what the
child does. Where these are the same on both sides, two launches are in step
(`runChild_sameOutcome`, `start_sameOutcome`).
-/

namespace LineShell

open Act Act.InStep

variable {R : World → World → Prop} {w v : World} {name file : String} {arguments : List String}

namespace Act

theorem runChild_sameOutcome (related : R w v)
    (debug : ∀ {w v} source message, R w v →
      R (w.note .debug source message) (v.note .debug source message))
    (prepared : prepareChild v file arguments = prepareChild w file arguments)
    (ran : ∀ program child, prepareChild w file arguments = .ok (program, child) →
      (child.run program v).1 = (child.run program w).1 ∧
        R (child.run program w).2 (child.run program v).2) :
    SameOutcome R (runChild name file arguments w) (runChild name file arguments v) := by
  simp only [runChild, bind_apply, get_apply, prepared]
  cases found : prepareChild w file arguments with
  | error e => exact .ok _ related
  | ok started =>
    obtain ⟨program, child⟩ := started
    have both := ran program child found
    dsimp only
    -- the record of the ending is the same, for both children have ended alike
    generalize child.run program w = result at both ⊢
    generalize child.run program v = result' at both ⊢
    obtain ⟨ending, after⟩ := result
    obtain ⟨ending', after'⟩ := result'
    obtain ⟨same, related'⟩ := both
    dsimp only at same related'
    subst same
    exact .ok _ (debug _ _ related')

/-- Texts that cannot be handed over are a fault in both runs. -/
theorem start_sameOutcome (related : R w v) (session : v.session = w.session)
    (ran : SameOutcome R (runChild name file arguments w) (runChild name file arguments v)) :
    SameOutcome R (start name file arguments w) (start name file arguments v) := by
  simp only [start, bind_apply, get_apply, session]
  cases handoverFault? file (name :: arguments) w.session with
  | some fault => exact .error fault related
  | none => exact ran

end Act

theorem Reporting.launchStatus_respects (reporting : Reporting R) (name : String)
    (outcome : Except Errno Int) : Respects R (launchStatus name outcome) := by
  cases outcome with
  | ok status => exact InStep.pure status
  | error e => exact bind (reporting.report _) fun _ => InStep.pure _

end LineShell
