import LineShell.Proofs.OneRun.Commands
import LineShell.Proofs.Path.Normal
import LineShell.Proofs.ReadLoop.Run

/-!
# What sessions keep

What holds of the session whatever lines are carried out, and whatever becomes of them.
`Session.Keeps` collects what one line keeps: every move of a session keeps it
(`keeps_of_move`), so all that the work on a line does to the session keeps it (`after_keeps`).

That the directory changes by a successful `cd` only is not a matter of moves but of how the
work ends (`StaysUnlessDone`).

Main statement: `runLines_session`.
-/

namespace LineShell

open Relation (ReflTransGen)
open Act (Takes state)

namespace Session

/-- The directory of the session is an absolute path in canonical form. -/
structure IsSettled (s : Session) : Prop where
  absolute : Path.isAbsolute s.cwd
  normal : Path.IsNormal s.cwd

/-- What every line keeps of a session, and what only certain commands change. -/
structure Keeps (parsed : Except ParseError Command) (s t : Session) : Prop where
  env : t.env = s.env
  settled : s.IsSettled → t.IsSettled
  stopped : s.exit.isSome → t.exit.isSome
  cwd : t.cwd = s.cwd ∨ ∃ c, parsed = .ok c ∧ c.name = some "cd"
  exit : t.exit = s.exit ∨ ∃ c, parsed = .ok c ∧ c.name = some "exit" ∧ c.arguments.length ≤ 1

variable {parsed : Except ParseError Command} {s t u : Session}

theorem Keeps.refl (s : Session) : Keeps parsed s s :=
  ⟨rfl, id, id, .inl rfl, .inl rfl⟩

theorem Keeps.trans (h : Keeps parsed s t) (h' : Keeps parsed t u) : Keeps parsed s u where
  env := h'.env.trans h.env
  settled := h'.settled ∘ h.settled
  stopped := h'.stopped ∘ h.stopped
  cwd := by
    rcases h'.cwd with same | asked
    · exact same ▸ h.cwd
    · exact .inr asked
  exit := by
    rcases h'.exit with same | asked
    · exact same ▸ h.exit
    · exact .inr asked

theorem keeps_of_move (move : Moves parsed s t) : Keeps parsed s t := by
  cases move with
  | works reads move =>
    cases move with
    | goes named path =>
      have settled : s.IsSettled → IsSettled { s with cwd := s.resolve path } :=
        fun settled => ⟨isAbsolute_resolve settled.absolute path, s.resolve_isNormal path⟩
      exact ⟨rfl, settled, id, .inr ⟨_, reads, named⟩, .inl rfl⟩
    | stops named few n =>
      exact ⟨rfl, fun h => ⟨h.absolute, h.normal⟩, fun _ => rfl, .inl rfl,
        .inr ⟨_, reads, named, few⟩⟩
  | keeps status => exact ⟨rfl, fun h => ⟨h.absolute, h.normal⟩, id, .inl rfl, .inl rfl⟩

theorem keeps_of_moves (moves : ReflTransGen (Moves parsed) s t) : Keeps parsed s t := by
  induction moves with
  | refl => exact .refl s
  | tail _ move ih => exact ih.trans (keeps_of_move move)

end Session

namespace World

theorem after_keeps (w : World) (line : String) :
    Session.Keeps (Command.meantBy line) w.session (w.after line).session := by
  have steps := Act.runLine_takes line w
  rw [← Act.run_eq_state] at steps
  exact Session.keeps_of_moves (Steps.session steps)

end World

/-! ## Going to a directory -/

/-- The directory of the session is the same. -/
def Session.SameCwd (s t : Session) : Prop :=
  t.cwd = s.cwd

theorem World.Steps.cwd_eq {w v : World} (steps : Steps Session.SameCwd w v) :
    v.session.cwd = w.session.cwd := by
  have moves := steps.session
  generalize v.session = session at moves
  induction moves with
  | refl => rfl
  | tail _ same ih => exact same.trans ih

namespace Act

/-- A run has ended in the directory `cwd`, or with status 0. -/
def EndsIn (cwd : String) : EStateM.Result Fault World Int → Prop
  | .ok status w => w.session.cwd = cwd ∨ status = 0
  | .error _ w => w.session.cwd = cwd

/-- An action that leaves the session in the directory that it was in, unless its status is 0. -/
def StaysUnlessDone (act : Act Int) : Prop :=
  ∀ w, EndsIn w.session.cwd (act w)

theorem StaysUnlessDone.of_takes {act : Act Int}
    (steps : Takes (World.Step Session.SameCwd) act) : StaysUnlessDone act := by
  intro w
  have same := World.Steps.cwd_eq (steps w)
  cases ran : act w with
  | ok status v =>
    rw [ran] at same
    exact .inl same
  | error fault v =>
    rw [ran] at same
    exact same

theorem StaysUnlessDone.bind {α : Type} {act : Act α} {next : α → Act Int}
    (first : Takes (World.Step Session.SameCwd) act) (rest : ∀ a, StaysUnlessDone (next a)) :
    StaysUnlessDone (act >>= next) := by
  intro w
  have before := World.Steps.cwd_eq (first w)
  rw [bind_apply]
  cases ran : act w with
  | ok a v =>
    rw [ran] at before
    exact before ▸ rest a v
  | error fault v =>
    rw [ran] at before
    exact before

theorem go_staysUnlessDone (target : String) : StaysUnlessDone (Builtin.runCd.go target) := by
  intro w
  unfold Builtin.runCd.go
  simp only [bind_apply, get_apply]
  cases Builtin.expandHome w.session target with
  | none => exact StaysUnlessDone.of_takes (Builtin.fail_takes _) w
  | some path =>
    dsimp only
    cases Builtin.directoryError? w (w.session.resolve path) with
    | some e => exact StaysUnlessDone.of_takes (Builtin.fail_takes _) w
    | none => exact .inr rfl

theorem runCd_staysUnlessDone (arguments : List String) :
    StaysUnlessDone (Builtin.runCd arguments) := by
  unfold Builtin.runCd
  match arguments with
  | [] => exact go_staysUnlessDone "~"
  | [target] => exact go_staysUnlessDone target
  | _ :: _ :: _ => exact .of_takes (Builtin.fail_takes _)

theorem run_staysUnlessDone (b : Builtin) (arguments : List String) :
    StaysUnlessDone (b.run arguments) := by
  by_cases cd : b = .cd
  · subst cd
    exact runCd_staysUnlessDone arguments
  · apply StaysUnlessDone.of_takes
    exact Builtin.run_takes b (fun same => absurd same cd) fun _ _ _ _ => rfl

theorem dispatch_staysUnlessDone (name : String) (arguments : List String) :
    StaysUnlessDone (dispatch .usual name arguments) := by
  unfold dispatch
  cases Builtin.ofName? name with
  | some b => exact .bind (note_takes _ _ _) fun _ => run_staysUnlessDone b arguments
  | none =>
    apply StaysUnlessDone.of_takes
    apply Takes.bind (findProgram_takes name)
    intro found
    cases found with
    | none => exact Takes.bind (report_takes _) fun _ => .pure _
    | some path =>
      exact Takes.bind (launch_takes name path arguments) fun outcome =>
        launchStatus_takes name outcome

theorem perform_staysUnlessDone (name : String) (c : Command) :
    StaysUnlessDone (perform .usual name c) := by
  apply StaysUnlessDone.bind (openRedirects_takes c)
  intro refusal
  cases refusal with
  | some refusal => exact .of_takes (Takes.bind (report_takes _) fun _ => .pure _)
  | none => exact dispatch_staysUnlessDone name c.arguments

theorem closing_staysUnlessDone {act : Act Int} (stays : StaysUnlessDone act) :
    StaysUnlessDone (closing act) := by
  intro w
  have closed (v : World) : v.closeRedirects.session.cwd = v.session.cwd :=
    World.Steps.cwd_eq v.closeRedirects_steps
  have worked := stays w
  unfold closing
  cases ran : act w with
  | ok status v =>
    rw [ran] at worked
    exact worked.imp_left (closed v).trans
  | error fault v =>
    rw [ran] at worked
    exact (closed v).trans worked

theorem execute_staysUnlessDone (c : Command) : StaysUnlessDone (execute c) := by
  intro w
  unfold execute executeBy
  cases c.name with
  | none => exact .inl rfl
  | some name =>
    have worked := closing_staysUnlessDone (perform_staysUnlessDone name c) w
    simp only [completing, bind_apply]
    cases ran : closing (perform .usual name c) w with
    | ok status v =>
      rw [ran] at worked
      exact worked
    | error fault v =>
      rw [ran] at worked
      exact worked

theorem runCommand_cwd (line : String) (c : Command) (w : World) :
    (state (runCommand line c w)).session.cwd = w.session.cwd ∨
      (state (runCommand line c w)).session.status = 0 := by
  have worked := execute_staysUnlessDone c w
  simp only [runCommand, tryCatch_apply, discard_apply]
  cases ran : execute c w with
  | ok status v =>
    rw [ran] at worked
    exact worked.imp_right (execute_status ran).trans
  | error fault v =>
    rw [ran] at worked
    have reported : Takes (World.Step Session.SameCwd) (reportFault line fault) := by
      apply Takes.bind (note_takes _ _ _)
      intro _
      exact Takes.bind (report_takes _) fun _ => remember_takes fun _ => rfl
    exact .inl ((World.Steps.cwd_eq (reported v)).trans worked)

end Act

namespace World

variable {w : World}

/-- A line after which the session has another directory has ended with status 0. -/
theorem after_cwd (w : World) (line : String) :
    (w.after line).session.cwd = w.session.cwd ∨ (w.after line).session.status = 0 := by
  obtain ⟨read, parsed, session, _⟩ := Act.parseLine_apply line w
  unfold after
  rw [Act.run_eq_state]
  unfold Act.runLine
  split
  · exact .inl rfl
  · rw [Act.bind_apply, parsed]
    dsimp only
    cases (Command.ofTokens (Token.tokenize line)).map Command.meant with
    | error e =>
      have reported : Takes (Step Session.SameCwd) (do
          Act.report s!"minishell: {e.message}"
          Act.remember fun s => { s with status := Act.syntaxStatus }) :=
        Takes.bind (Act.report_takes _) fun _ => Act.remember_takes fun _ => rfl
      exact .inl ((Steps.cwd_eq (reported read)).trans (congrArg Session.cwd session))
    | ok c =>
      rw [← session]
      exact Act.runCommand_cwd line c read

/-! ## Many lines -/

theorem runLines_keeps (w : World) (lines : List String) :
    (w.runLines lines).session.env = w.session.env ∧
    (w.session.IsSettled → (w.runLines lines).session.IsSettled) ∧
    (w.session.exit.isSome → (w.runLines lines).session.exit.isSome) := by
  induction lines generalizing w with
  | nil => exact ⟨rfl, id, id⟩
  | cons line lines ih =>
    have kept := w.after_keeps line
    obtain ⟨env, settled, stopped⟩ := ih (w.after line)
    exact ⟨env.trans kept.env, settled ∘ kept.settled, stopped ∘ kept.stopped⟩

end World

/-- What is meant by a line is the command that it is read as, but for the synonym. -/
theorem Command.ofLine_of_meantBy {line : String} {c : Command} (reads : meantBy line = .ok c) :
    ∃ d, ofLine line = .ok d ∧
      (c = d ∨ d.name = some exitSynonym ∧ d.arguments = [] ∧ c.name = some "exit") := by
  unfold meantBy at reads
  cases read : ofLine line with
  | error e => simp [read, Except.map] at reads
  | ok d =>
    simp only [read, Except.map, Except.ok.injEq] at reads
    refine ⟨d, rfl, ?_⟩
    unfold meant at reads
    split at reads
    · rename_i synonym
      subst reads
      exact .inr ⟨synonym.1, synonym.2, rfl⟩
    · exact .inl reads.symm

namespace World

/-- Whatever lines are carried out from a session in an absolute and canonical directory, the
directory stays absolute and canonical and the environment as it is, and a session that is
stopped stays stopped. The next line changes the directory only if its command is `cd` and it
ends with status 0, and it stops the session only if its command is `exit` with at most one
argument, or the synonym of `exit` alone. -/
theorem runLines_session {w : World} (absolute : Path.isAbsolute w.session.cwd)
    (normal : Path.IsNormal w.session.cwd) (lines : List String) :
    let v := w.runLines lines
    Path.isAbsolute v.session.cwd ∧ Path.IsNormal v.session.cwd ∧
    v.session.env = w.session.env ∧
    (∀ more, v.session.exit.isSome → (v.runLines more).session.exit.isSome) ∧
    ∀ line,
      ((v.after line).session.cwd ≠ v.session.cwd → (v.after line).session.status = 0 ∧
        ∃ c, Command.ofLine line = .ok c ∧ c.name = some "cd") ∧
      ((v.after line).session.exit ≠ v.session.exit → ∃ c, Command.ofLine line = .ok c ∧
        (c.name = some "exit" ∧ c.arguments.length ≤ 1 ∨
          c.name = some "0" ∧ c.arguments = [])) := by
  intro v
  obtain ⟨env, settled, _⟩ := w.runLines_keeps lines
  obtain ⟨absolute', normal'⟩ := settled ⟨absolute, normal⟩
  refine ⟨absolute', normal', env, fun more => (v.runLines_keeps more).2.2, fun line => ⟨?_, ?_⟩⟩
  · intro changed
    have kept := v.after_keeps line
    obtain ⟨c, meant, named⟩ := kept.cwd.resolve_left changed
    obtain ⟨d, read, same | ⟨_, _, exit⟩⟩ := Command.ofLine_of_meantBy meant
    · exact ⟨(v.after_cwd line).resolve_left changed, d, read, same ▸ named⟩
    · -- the synonym stands for another command
      exact absurd (named.symm.trans exit) (by decide)
  · intro changed
    have kept := v.after_keeps line
    obtain ⟨c, meant, named, few⟩ := kept.exit.resolve_left changed
    obtain ⟨d, read, same | ⟨synonym, alone, _⟩⟩ := Command.ofLine_of_meantBy meant
    · subst same
      exact ⟨c, read, .inl ⟨named, few⟩⟩
    · exact ⟨d, read, .inr ⟨synonym, alone⟩⟩

theorem runLines_session_bare : Path.isAbsolute bare.session.cwd ∧
    Path.IsNormal bare.session.cwd ∧
    Path.isAbsolute (bare.runLines ["cd .", "exit 3"]).session.cwd ∧
    (bare.runLines ["cd .", "exit 3"]).session.env = [] := by
  have absolute : Path.isAbsolute bare.session.cwd := by decide
  have normal : Path.IsNormal bare.session.cwd := by
    unfold Path.IsNormal
    decide
  obtain ⟨absolute', _, env, _⟩ := runLines_session absolute normal ["cd .", "exit 3"]
  exact ⟨absolute, normal, absolute', env⟩

end World

end LineShell
