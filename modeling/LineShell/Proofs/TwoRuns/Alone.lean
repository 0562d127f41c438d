import LineShell.Proofs.OneRun.Streams
import LineShell.Proofs.TwoRuns.Launches

/-!
# A run in step with itself

What an action keeps true is a relation between two runs of which both are the same run
(`World.Alone`). So all that is known of builtins in two runs holds of what they keep true in
one, for which there is no more to be shown than that terminals, open files, records and the
session may be touched (`World.Allows`).

Main statement: `Allows.correspondence`.
-/

namespace LineShell

open Act Act.InStep

/-- Both worlds are one world, of which `P` holds. -/
def World.Alone (P : World → Prop) (w v : World) : Prop :=
  v = w ∧ P w

variable {P : World → Prop} {w : World}

theorem SameOutcome.alone {α : Type} {r : EStateM.Result Fault World α} (holds : P (state r)) :
    SameOutcome (World.Alone P) r r := by
  cases r with
  | ok value after => exact .ok value ⟨rfl, holds⟩
  | error fault after => exact .error fault ⟨rfl, holds⟩

namespace Act

variable {α : Type} {act : Act α}

/-- An action that keeps `P` true, however it ends. -/
abbrev Keeps (P : World → Prop) (act : Act α) : Prop :=
  Respects (World.Alone P) act

theorem Keeps.of_state (kept : ∀ w, P w → P (state (act w))) : Keeps P act := by
  rintro w v ⟨rfl, holds⟩
  exact .alone (kept v holds)

theorem Keeps.state (keeps : Keeps P act) (holds : P w) : P (state (act w)) := by
  have ended := (InStep.run keeps ⟨rfl, holds⟩).2
  rwa [run_eq_state] at ended

end Act

/-- What may happen to a world of which `P` holds, while a command does its work. -/
structure World.Allows (P : World → Prop) : Prop where
  debug : ∀ {w} source message, P w → P (w.note .debug source message)
  remember : ∀ {w} (f : Session → Session), P w → P { w with session := f w.session }
  onTerminal : ∀ {w} c f, P w → P (w.onTerminal c f)
  onFile : ∀ {w c file} {act : FileAct Unit}, P w → w.redirects.get c = some file →
    Takes OpenFile.Step act → P (state (Act.onFile c file act w))

namespace World.Allows

variable (allows : World.Allows P)
include allows

theorem print_keeps (c : Channel) (text : String) : Keeps P (print c text) := by
  apply Keeps.of_state
  intro w holds
  simp only [print, bind_apply, get_apply]
  cases stands : w.redirects.get c with
  | some file => exact allows.onFile holds stands (OpenFile.print_takes _)
  | none => exact allows.onTerminal c (·.print (Utf8.encode text)) holds

theorem flush_keeps (c : Channel) : Keeps P (flush c) := by
  apply Keeps.of_state
  intro w holds
  simp only [flush, bind_apply, get_apply]
  cases stands : w.redirects.get c with
  | some file => exact allows.onFile holds stands OpenFile.flush_takes
  | none => exact allows.onTerminal c (·.flush) holds

theorem printBytes_keeps (c : Channel) (bytes : Bytes) : Keeps P (printBytes c bytes) := by
  apply Keeps.of_state
  intro w holds
  simp only [printBytes, bind_apply, get_apply]
  cases stands : w.redirects.get c with
  | some file => exact allows.onFile holds stands (OpenFile.printBytes_takes bytes)
  | none =>
    let shown := if w.console.textOnly then Utf8.encode (Utf8.decode bytes) else bytes
    exact allows.onTerminal c (fun t => (t.print shown).flush) holds

theorem report_keeps (message : String) : Keeps P (report message) := by
  apply get_bind
  rintro w v ⟨rfl, _⟩
  apply bind (bind (allows.print_keeps .err _) fun _ => allows.print_keeps .err "\n")
  intro _
  exact allows.flush_keeps .err

/-- A builtin is free to do what may happen. -/
theorem correspondence : Correspondence (World.Alone P) where
  session related := by rw [related.1]
  debug := by
    rintro w v source message ⟨rfl, holds⟩
    exact ⟨rfl, allows.debug source message holds⟩
  print := allows.print_keeps .out
  flush := allows.flush_keeps .out
  printBytes := allows.printBytes_keeps .out
  report := allows.report_keeps
  candidates name related := by rw [related.1]
  directoryError? path related := by rw [related.1]
  remember := by
    rintro w v f ⟨rfl, holds⟩
    exact ⟨rfl, allows.remember f holds⟩

end World.Allows

/-- A builtin keeps true what the actions that it is made of keep true. -/
theorem Correspondence.run_keeps (same : Correspondence (World.Alone P)) (b : Builtin)
    (arguments : List String) : Keeps P (b.run arguments) :=
  same.run_respects b fun _ _ _ _ _ related => by rw [related.1]

end LineShell
