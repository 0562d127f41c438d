import LineShell.Proofs.Execution.Closing
import LineShell.Proofs.ReadLoop.Terminals

/-!
# A line does the same after any output

Every action of the shell, up to the work on a whole line, respects `World.Alike`: what it does
does not depend on what the terminals showed before, and it adds the same to them.

Main statements: `execute_respects`, `runLine_respects`, and that a line which is begun with
no file standing in for a stream also ends so (`runLine_isIdle`).
-/

namespace LineShell

open Act Act.InStep

variable {past past' : Both Bytes} {w v : World}

namespace Act

/-! ## Launching -/

/-- Before a child is started the buffers are emptied, so its output is shown last. -/
theorem launch_respects (name path : String) (arguments : List String) :
    Respects (World.Alike past past') (launch start name path arguments) := by
  intro w v alike
  -- all that comes after the flush keeps the terminals calm
  have rest : Respects (World.Calm past past') (do
      note .debug .execution
        s!"launching {path} as {Text.quote name} with {Text.quoteList arguments}"
      start name (Path.join (← get).session.cwd path) arguments) := by
    apply bind (modify_of fun w v (calm : w.Calm past past' v) => calm.note _ _ _)
    intro _
    apply get_bind
    rintro w v ⟨⟨_, rfl, _⟩, _⟩
    exact World.Calm.hosting.start_respects name _ arguments
  exact (rest alike.flushTerminals).mono fun _ _ calm => calm.1

/-! ## Commands -/

theorem dispatch_respects (name : String) (arguments : List String) :
    Respects (World.Alike past past') (dispatch .usual name arguments) := by
  have same : Correspondence (World.Alike past past') := World.Alike.correspondence
  unfold dispatch
  cases Builtin.ofName? name with
  | some b =>
    apply bind (same.note_respects .execution _)
    intro _
    exact World.Alike.speaking.run_respects report_respects b arguments
  | none =>
    apply bind (same.findProgram_respects name)
    intro found
    cases found with
    | none => exact bind (same.report _) fun _ => InStep.pure _
    | some path =>
      apply bind (launch_respects name path arguments)
      intro outcome
      exact same.launchStatus_respects name outcome

theorem perform_respects (name : String) (command : Command) :
    Respects (World.Alike past past') (perform .usual name command) := by
  apply bind (World.Alike.speaking.openRedirects_respects command)
  intro refusal
  cases refusal with
  | some refusal => exact bind (report_respects _) fun _ => InStep.pure _
  | none => exact dispatch_respects name command.arguments

theorem execute_respects (command : Command) :
    Respects (World.Alike past past') (execute command) := by
  unfold execute executeBy
  cases command.name with
  | none =>
    apply get_bind
    rintro w v ⟨_, rfl, _⟩
    exact InStep.pure _
  | some name => exact fun _ _ alike =>
      World.Alike.speaking.completing_sameOutcome (perform_respects name command alike)

/-! ## Lines -/

theorem runLine_respects (line : String) : Respects (World.Alike past past') (runLine line) := by
  unfold runLine
  split
  · exact InStep.pure _
  · apply bind (World.Alike.speaking.parseLine_respects line)
    intro parsed
    cases parsed with
    | error e =>
      apply bind (report_respects _)
      intro _
      exact World.Alike.correspondence.remember_respects _
    | ok command =>
      apply InStep.tryCatch
      · exact bind (execute_respects command) fun _ => InStep.pure _
      · exact World.Alike.speaking.reportFault_respects report_respects line

end Act

/-! ## Between two lines -/

namespace Act

variable {w : World}

theorem report_isIdle (message : String) (idle : w.IsIdle) : ((report message).run w).IsIdle := by
  simpa [Act.run, report_apply (idle.get .err), World.IsIdle] using idle

/-- Where the streams are those of the shell, a fault is reported and becomes a status. -/
theorem reportFault_apply (line : String) (fault : Fault) (idle : w.IsIdle) :
    ∃ after, reportFault line fault w = .ok () after ∧ after.IsIdle ∧
      after.session.status = failureStatus := by
  have noted : (w.note .error .reading s!"unexpected error running {Text.quote line}").IsIdle := by
    simpa [World.IsIdle] using idle
  simp only [reportFault, bind_apply, note_apply, report_apply (noted.get .err), remember_apply]
  exact ⟨_, rfl, noted, rfl⟩

theorem runCommand_isIdle (line : String) (command : Command) (idle : w.IsIdle) :
    ((runCommand line command).run w).IsIdle := by
  have ended := execute_isIdle command idle
  simp only [Act.run, runCommand, tryCatch_apply, discard_apply] at ended ⊢
  cases ran : execute command w with
  | ok status after =>
    rw [ran] at ended
    exact ended
  | error fault after =>
    rw [ran] at ended
    obtain ⟨last, reported, idle', _⟩ := reportFault_apply line fault ended
    simpa [reported] using idle'

theorem runLine_isIdle (line : String) (idle : w.IsIdle) : ((runLine line).run w).IsIdle := by
  obtain ⟨after, parsed, _, _, redirects⟩ := parseLine_apply line w
  have idle' : after.IsIdle := redirects.trans idle
  unfold runLine
  split
  · exact idle
  · simp only [Act.run, bind_apply, parsed]
    cases Except.map Command.meant (Command.ofTokens (Token.tokenize line)) with
    | error e =>
      have reported := report_isIdle s!"minishell: {e.message}" idle'
      simp only [Act.run, bind_apply, report_apply (idle'.get .err)] at reported ⊢
      exact reported
    | ok command => exact runCommand_isIdle line command idle'

end Act

end LineShell
