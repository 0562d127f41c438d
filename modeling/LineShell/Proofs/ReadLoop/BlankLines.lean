import LineShell.Proofs.Session.Invariant
import LineShell.Proofs.Text.Numerals
import LineShell.Proofs.Words.Reading
import LineShell.Proofs.Words.Superseded

/-!
# Blank lines

Three parts of the shell have a notion of nothing being there: a line is skipped for its white
space, cutting it into words gives none, and a command has no name. A line has no words if it
consists of the four blanks (`scan_between_eq_nil_iff`), and only without words a command has no
name (`meantBy_unnamed_iff`). All blanks are white space, so what is not skipped is refused or is
a command with a name.

Main statement: `runLine_skips`.
-/

namespace LineShell

/-! ## Lines without words -/

namespace Token

theorem isBlank_iff {c : Char} : isBlank c ↔ c = ' ' ∨ c = '\t' ∨ c = '\n' ∨ c = '\r' := by
  simp [isBlank, or_assoc]

theorem isSpace_of_isBlank {c : Char} (blank : isBlank c) : Text.isSpace c := by
  rcases isBlank_iff.1 blank with rfl | rfl | rfl | rfl <;> decide

/-- A character that ends no word belongs to one. -/
theorem Scan.step_ne_between (s : Scan) (c : Char) : s.step c ≠ .between := by
  unfold step
  split
  · split <;> nofun
  · split <;> nofun

theorem Scan.finish_ne_nil {s : Scan} (inWord : s ≠ .between) : s.finish ≠ [] := by
  cases s with
  | between => exact absurd rfl inWord
  | word => exact List.cons_ne_nil _ _
  | quotation => exact List.cons_ne_nil _ _

/-- A word that has begun is given in the end, though it may be empty. -/
theorem scan_ne_nil {s : Scan} (inWord : s ≠ .between) (line : List Char) : scan s line ≠ [] := by
  induction line generalizing s with
  | nil => exact s.finish_ne_nil inWord
  | cons c line ih =>
    rw [scan]
    split
    · exact List.append_ne_nil_of_left_ne_nil (s.finish_ne_nil inWord) _
    · exact ih (s.step_ne_between c)

theorem scan_between_eq_nil_iff (line : List Char) :
    scan .between line = [] ↔ ∀ c ∈ line, isBlank c := by
  constructor
  · intro nothing
    induction line with
    | nil =>
      intro c listed
      cases listed
    | cons c line ih =>
      rw [scan] at nothing
      split at nothing
      · rename_i blank
        exact List.forall_mem_cons.2 ⟨blank, ih nothing⟩
      · exact absurd nothing (scan_ne_nil (Scan.step_ne_between _ c) line)
  · intro blank
    have passed := scan_blanks blank []
    rwa [List.append_nil] at passed

end Token

/-! ## Commands without a name -/

namespace Command

variable {tokens : List Token} {line : String}

theorem Draft.command_unnamed_iff {d : Draft} {c : Command} (reads : d.command = .ok c) :
    c.name = none ↔ d = {} := by
  obtain ⟨words, stdout, stderr⟩ := d
  cases words with
  | cons name arguments =>
    cases reads
    exact ⟨nofun, nofun⟩
  | nil =>
    -- redirections that are for nothing would be refused
    cases stdout <;> cases stderr <;> cases reads
    exact ⟨fun _ => rfl, fun _ => rfl⟩

/-- Every token leaves a trace in the draft. -/
theorem Draft.ofTokens_eq_empty_iff : ofTokens tokens = .ok {} ↔ tokens = [] := by
  refine ⟨fun reads => ?_, fun empty => empty ▸ rfl⟩
  cases tokens with
  | nil => rfl
  | cons t rest =>
    obtain ⟨_, d, _, whole⟩ | ⟨op, target, _, d, _, _, _, _, whole⟩ := ofTokens_cases reads
    · have words := congrArg Draft.words whole
      cases words
    · -- the redirection of the channel is there
      have redirected := congrArg (Draft.redirection · op.channel) whole
      simp only [redirection_redirect, if_true] at redirected
      obtain ⟨channel, append⟩ := op
      cases channel <;> simp [redirection] at redirected

theorem ofTokens_unnamed_iff {c : Command} (reads : ofTokens tokens = .ok c) :
    c.name = none ↔ tokens = [] := by
  unfold ofTokens at reads
  cases read : Draft.ofTokens tokens with
  | error e => simp [read, Except.bind] at reads
  | ok d =>
    simp only [read, Except.bind] at reads
    rw [Draft.command_unnamed_iff reads, ← Draft.ofTokens_eq_empty_iff, read, Except.ok.injEq]

/-- The synonym stands for a command with a name too. -/
theorem meant_unnamed_iff (c : Command) : c.meant.name = none ↔ c.name = none := by
  unfold meant
  split
  · rename_i synonym
    simp [synonym.1]
  · rfl

theorem meantBy_unnamed_iff {c : Command} (means : meantBy line = .ok c) :
    c.name = none ↔ Token.tokenize line = [] := by
  unfold meantBy at means
  cases reads : ofTokens (Token.tokenize line) with
  | error e => simp [ofLine, reads, Except.map] at means
  | ok d =>
    simp only [ofLine, reads, Except.map, Except.ok.injEq] at means
    rw [← means, meant_unnamed_iff, ofTokens_unnamed_iff reads]

theorem meantBy_of_no_tokens (empty : Token.tokenize line = []) :
    meantBy line = .ok { name := none } := by
  rw [meantBy, ofLine, empty]
  rfl

end Command

/-! ## White space -/

namespace Text

theorem isVoid_iff {line : String} : isVoid line ↔ ∀ c ∈ line.toList, isSpace c := by
  simp [isVoid]

/-- A line is void if nothing is left when it is stripped of white space. -/
theorem isVoid_iff_trim {line : String} : isVoid line ↔ trim isSpace line.toList = [] := by
  rw [isVoid_iff]
  constructor
  · intro space
    rw [trim_eq, List.dropWhile_eq_nil_iff.2 space]
    rfl
  · intro nothing
    obtain ⟨before, after, whole, space⟩ := exists_trim isSpace line.toList
    rw [nothing, List.append_nil] at whole
    rwa [whole]

theorem isVoid_of_no_tokens {line : String} (empty : Token.tokenize line = []) : isVoid line :=
  isVoid_iff.2 fun c listed =>
    Token.isSpace_of_isBlank ((Token.scan_between_eq_nil_iff line.toList).1 empty c listed)

end Text

/-! ## What a line comes to -/

namespace Act

variable {w : World} {line : String}

/-- What a line has come to that was read in one world and left another: a refusal by its form, or
the work of a command with a name, which has a status or was stopped by a fault. -/
inductive LineOutcome (line : String) (read after : World) : Prop
  | refused {e : ParseError} (means : Command.meantBy line = .error e)
      (status : after.session.status = syntaxStatus)
  | performed {c : Command} {name : String} {status : Int} {v : World}
      (means : Command.meantBy line = .ok c) (named : c.name = some name)
      (work : perform .usual name c read = .ok status v)
      (status : after.session.status = status)
  | stopped {c : Command} {name : String} {fault : Fault} {v : World}
      (means : Command.meantBy line = .ok c) (named : c.name = some name)
      (work : perform .usual name c read = .error fault v)
      (status : after.session.status = failureStatus)

theorem runLine_of_isVoid (void : Text.isVoid line) (w : World) : runLine line w = .ok () w := by
  rw [runLine, if_pos void]
  rfl

theorem runLine_of_not_isVoid {read : World} (stands : ¬ Text.isVoid line)
    (parsed : parseLine line w = .ok (Command.meantBy line) read) :
    runLine line w = match Command.meantBy line with
      | .error e => (report s!"minishell: {e.message}" >>= fun _ =>
          remember fun s => { s with status := syntaxStatus }) read
      | .ok c => runCommand line c read := by
  rw [runLine, if_neg stands, bind_apply, parsed]
  cases Command.meantBy line <;> rfl

theorem runCommand_outcome {c : Command} {name : String} {read : World} (idle : read.IsIdle)
    (means : Command.meantBy line = .ok c) (named : c.name = some name) :
    ∃ after, runCommand line c read = .ok () after ∧ LineOutcome line read after := by
  have idle' := execute_isIdle c idle
  have course : runCommand line c read = _ := tryCatch_apply _ _ _
  rw [discard_apply, execute_named named] at course
  rw [execute_named named, Act.run] at idle'
  simp only [completing, bind_apply, closing] at course idle'
  cases work : perform .usual name c read with
  | ok status v =>
    simp only [work, remember_apply, pure_apply] at course
    exact ⟨_, course, .performed means named work rfl⟩
  | error fault v =>
    simp only [work] at course idle'
    obtain ⟨after, reported, _, failed⟩ := reportFault_apply line fault idle'
    exact ⟨after, course.trans reported, .stopped means named work failed⟩

/-- A line has no words if it consists of blanks, whatever was scanned before, and its command has
no name if it has no words. A line that is left empty when it is stripped of white space changes
nothing. Every other one is refused for its form or means a command with a name, and the status is
that of the refusal or of the command. -/
theorem runLine_skips (idle : w.IsIdle) (line : String) :
    (∀ scanner : Scanner, (scanner.tokenize line).1 = [] ↔
      ∀ c ∈ line.toList, c = ' ' ∨ c = '\t' ∨ c = '\n' ∨ c = '\r') ∧
    (∃ read, parseLine line w = .ok (Command.meantBy line) read) ∧
    ((∃ c, Command.meantBy line = .ok c ∧ c.name = none) ↔ Token.tokenize line = []) ∧
    (Text.trim Text.isSpace line.toList = [] → runLine line w = .ok () w) ∧
    (Text.trim Text.isSpace line.toList ≠ [] → ∃ read after,
      parseLine line w = .ok (Command.meantBy line) read ∧
      runLine line w = .ok () after ∧ after.IsIdle ∧ LineOutcome line read after) := by
  obtain ⟨read, parsed, _, _, redirects⟩ := parseLine_apply line w
  change parseLine line w = .ok (Command.meantBy line) read at parsed
  refine ⟨fun scanner => ?_, ⟨read, parsed⟩, ⟨?_, fun empty => ?_⟩, fun nothing => ?_,
    fun something => ?_⟩
  · rw [Scanner.tokenize_eq, Token.tokenize, Token.scan_between_eq_nil_iff]
    simp only [Token.isBlank_iff]
  · rintro ⟨c, means, unnamed⟩
    exact (Command.meantBy_unnamed_iff means).1 unnamed
  · exact ⟨_, Command.meantBy_of_no_tokens empty, rfl⟩
  · exact runLine_of_isVoid (Text.isVoid_iff_trim.2 nothing) w
  have stands : ¬ Text.isVoid line := fun void => something (Text.isVoid_iff_trim.1 void)
  have ran := runLine_of_not_isVoid stands parsed
  have idle' : read.IsIdle := redirects.trans idle
  have idleAfter := runLine_isIdle line idle
  suffices course : ∃ after, runLine line w = .ok () after ∧ LineOutcome line read after by
    obtain ⟨after, ended, outcome⟩ := course
    rw [run, ended] at idleAfter
    exact ⟨read, after, parsed, ended, idleAfter, outcome⟩
  cases means : Command.meantBy line with
  | error e =>
    simp only [means, bind_apply, report_apply (idle'.get .err), remember_apply] at ran
    exact ⟨_, ran, .refused means rfl⟩
  | ok c =>
    simp only [means] at ran
    cases named : c.name with
    | none =>
      have empty := (Command.meantBy_unnamed_iff means).1 named
      exact absurd (Text.isVoid_of_no_tokens empty) stands
    | some name =>
      obtain ⟨after, ended, outcome⟩ := runCommand_outcome idle' means named
      exact ⟨after, ran.trans ended, outcome⟩

/-- A no-break space is skipped though it makes a word, and two quotes are a command. -/
theorem runLine_skips_bare : World.bare.IsIdle ∧
    Token.tokenize "\u00a0" ≠ [] ∧ runLine "\u00a0" World.bare = .ok () World.bare ∧
    ∃ read after, runLine "\t''" World.bare = .ok () after ∧
      after.IsIdle ∧ LineOutcome "\t''" read after := by
  have idle : World.bare.IsIdle := rfl
  obtain ⟨_, _, _, skips, _⟩ := runLine_skips idle "\u00a0"
  obtain ⟨_, _, _, _, runs⟩ := runLine_skips idle "\t''"
  obtain ⟨read, after, _, ran, idle', outcome⟩ := runs (by decide)
  exact ⟨idle, by decide, skips (by decide), read, after, ran, idle', outcome⟩

end Act

end LineShell
