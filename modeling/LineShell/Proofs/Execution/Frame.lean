import LineShell.Proofs.Execution.Closing
import LineShell.Proofs.Redirection.Targets
import LineShell.Proofs.Session.Children
import LineShell.Proofs.TwoRuns.Alone
import LineShell.Proofs.Words.Superseded

/-!
# What a command leaves as it is

A command that runs no child changes the tree only where its redirections say so: in the files
that they name, and by directories on the way to these (`World.Stays`). That holds for each way
in which a command can end.

Main statement: `execute_develops`.
-/

namespace LineShell

open Relation (ReflTransGen)
open Act

variable {ways : String → Prop} {files : NodeId → Prop}

/-- Whatever is done with an open file, only this file is written to. -/
theorem OpenFile.Step.develops {here : NodeId} {s t : OpenFile × FileSystem}
    (steps : ReflTransGen Step s t) :
    t.1.node = s.1.node ∧ s.2.Develops here ways (· = s.1.node) t.2 := by
  induction steps with
  | refl => exact ⟨rfl, .refl _⟩
  | tail _ step ih =>
    obtain ⟨same, develops⟩ := ih
    cases step with
    | buffered => exact ⟨same, develops⟩
    | written done =>
      rw [same] at done
      exact ⟨same, develops.trans (FileSystem.writeTo_develops done)⟩

namespace World

/-- Since `w` nothing has happened to the tree but that directories were made at the paths `ways`
and that the files `files` were made or written to, which are those that stand in for streams. -/
structure Stays (ways : String → Prop) (files : NodeId → Prop) (w v : World) : Prop where
  here : v.here = w.here
  streams : ∀ {c file}, v.redirects.get c = some file → files file.node
  tree : w.files.Develops w.here ways files v.files

variable {w v : World}

namespace Stays

theorem mono {ways' : String → Prop} {files' : NodeId → Prop} (stays : w.Stays ways files v)
    (ways_sub : ∀ path, ways path → ways' path) (files_sub : ∀ id, files id → files' id) :
    w.Stays ways' files' v where
  here := stays.here
  streams stands := files_sub _ (stays.streams stands)
  tree := stays.tree.mono ways_sub files_sub

/-- An open file goes on standing in for its stream while it is written to. -/
theorem steps {c : Channel} {file file' : OpenFile} {tree : FileSystem}
    (stays : w.Stays ways files v) (stands : v.redirects.get c = some file)
    (steps : ReflTransGen OpenFile.Step (file, v.files) (file', tree)) :
    files file'.node ∧ w.files.Develops w.here ways files tree := by
  obtain ⟨same, develops⟩ := OpenFile.Step.develops steps
  have listed := stays.streams stands
  dsimp only at same develops
  exact ⟨same ▸ listed, stays.tree.trans (develops.mono (fun _ way => way) fun _ is => is ▸ listed)⟩

theorem onFile {c : Channel} {file : OpenFile} {act : FileAct Unit} (stays : w.Stays ways files v)
    (stands : v.redirects.get c = some file) (takes : Takes OpenFile.Step act) :
    w.Stays ways files (state (Act.onFile c file act v)) := by
  have ended := takes (file, v.files)
  have kept : ∀ file' tree, ReflTransGen OpenFile.Step (file, v.files) (file', tree) →
      w.Stays ways files { v with files := tree, redirects := v.redirects.set c (some file') } := by
    intro file' tree steps
    obtain ⟨listed, develops⟩ := stays.steps stands steps
    refine ⟨stays.here, fun {d other} stands' => ?_, develops⟩
    rcases Both.get_set_eq_some stands' with ⟨rfl, rfl⟩ | ⟨_, before⟩
    · exact listed
    · exact stays.streams before
  unfold Act.onFile
  cases ran : act (file, v.files) with
  | ok _ after =>
    rw [ran] at ended
    exact kept _ _ ended
  | error e after =>
    rw [ran] at ended
    exact kept _ _ ended

theorem note (stays : w.Stays ways files v) (level : Log.Level) (source : Log.Source)
    (message : String) : w.Stays ways files (v.note level source message) where
  here := by simpa using stays.here
  streams stands := stays.streams (by simpa using stands)
  tree := by simpa using stays.tree

theorem closeRedirect (stays : w.Stays ways files v) (c : Channel) :
    w.Stays ways files (v.closeRedirect c) := by
  unfold World.closeRedirect
  cases stands : v.redirects.get c with
  | none => exact stays
  | some file =>
    obtain ⟨last, steps⟩ := file.close_steps v.files
    obtain ⟨_, develops⟩ := stays.steps stands steps
    have closed : w.Stays ways files
        { v with files := (file.close v.files).1, redirects := v.redirects.set c none } := by
      refine ⟨stays.here, fun {d other} stands' => ?_, develops⟩
      by_cases same : d = c
      · simp [same] at stands'
      · exact stays.streams (by simpa [same] using stands')
    dsimp only
    cases (file.close v.files).2 with
    | none => exact closed
    | some e => exact closed.note _ _ _

theorem closeRedirects (stays : w.Stays ways files v) : w.Stays ways files v.closeRedirects :=
  (stays.closeRedirect .err).closeRedirect .out

theorem allows (w : World) : Allows (w.Stays ways files) where
  debug source message stays := stays.note _ source message
  remember _ stays := ⟨stays.here, stays.streams, stays.tree⟩
  onTerminal _ _ stays := ⟨stays.here, stays.streams, stays.tree⟩
  onFile stays stands takes := stays.onFile stands takes

end Stays

/-! ## Opening -/

/-- The text is the path of a directory on the way to the file of a redirection of the command. -/
def OnWays (w : World) (c : Command) (text : String) : Prop :=
  ∃ channel r, c.redirect channel = some r ∧ w.OnWay r text

/-- In the tree `fs` a redirection of the command names the file. -/
def IsNamedBy (w : World) (c : Command) (fs : FileSystem) (id : NodeId) : Prop :=
  ∃ channel r, c.redirect channel = some r ∧ ¬ Path.endsInSlash r.path ∧
    fs.find w.here (w.session.resolve r.path) = .ok id

variable {c : Command} {channel : Channel}

theorem Tries.session {r : Option Redirect} {result : EStateM.Result Fault World (Option Refusal)}
    (tries : v.Tries channel r result) : (state result).session = v.session := by
  cases tries <;> rfl

theorem openRedirects_session (w : World) (c : Command) :
    (state (Act.openRedirects c w)).session = w.session := by
  have first := (openRedirect_tries w .err c.stderr).session
  unfold openRedirects
  rw [bind_apply]
  cases ran : openRedirect .err c.stderr w with
  | error fault mid =>
    rw [ran] at first
    exact first
  | ok refusal mid =>
    rw [ran] at first
    cases refusal with
    | some refusal => exact first
    | none => exact (openRedirect_tries mid .out c.stdout).session.trans first

/-- A file that is opened is one that a redirection names. -/
theorem Tries.stays {result : EStateM.Result Fault World (Option Refusal)}
    (tries : v.Tries channel (c.redirect channel) result) (same : v.session = w.session)
    (stays : w.Stays (w.OnWays c) (w.IsNamedBy c v.files) v) :
    w.Stays (w.OnWays c) (w.IsNamedBy c (state result).files) (state result) := by
  generalize redirected : c.redirect channel = redirect at tries
  -- what a redirection named it names in a tree that has grown
  have later : ∀ {tree : FileSystem}, v.files.Grows tree → ∀ id, w.IsNamedBy c v.files id →
      w.IsNamedBy c tree id := by
    rintro tree grows id ⟨d, r, isRedirect, named, found⟩
    exact ⟨d, r, isRedirect, named, grows.find found⟩
  have before : ∀ r, redirect = some r → ∀ text, v.OnWay r text → w.OnWays c text := by
    rintro r rfl text way
    refine ⟨channel, r, redirected, ?_⟩
    unfold OnWay at way ⊢
    rwa [same] at way
  have directories : ∀ r, redirect = some r → ∀ {tree : FileSystem},
      v.files.Develops v.here (v.OnWay r) (fun _ => False) tree →
      w.Stays (w.OnWays c) (w.IsNamedBy c tree) { v with files := tree } := by
    intro r isRedirect tree made
    rw [stays.here] at made
    have made' : v.files.Develops w.here (w.OnWays c) (w.IsNamedBy c tree) tree :=
      made.mono (before r isRedirect) fun _ nothing => nothing.elim
    have stays' := stays.mono (fun _ way => way) (later made.toGrows)
    exact ⟨stays'.here, stays'.streams, stays'.tree.trans made'⟩
  cases tries with
  | none => exact stays
  | slash => exact stays
  | refused named made => exact directories _ rfl made
  | fault named made => exact directories _ rfl made
  | @opened r id tree named clean opens =>
    have develops := opens.develops
    have stays' := stays.mono (fun _ way => way) (later develops.toGrows)
    have isNamed : w.IsNamedBy c tree id := by
      have found := opens.find
      rw [stays.here, same] at found
      exact ⟨channel, r, redirected, named, found⟩
    rw [stays.here] at develops
    refine ⟨stays'.here, fun {d file} stands => ?_,
      stays'.tree.trans (develops.mono (before r rfl) fun _ is => is ▸ isNamed)⟩
    rcases Both.get_set_eq_some stands with ⟨rfl, rfl⟩ | ⟨_, open_⟩
    · exact isNamed
    · exact stays'.streams open_

/-- After the files of a command have been opened, well or not, the tree is as its redirections
allow. -/
theorem openRedirects_stays (idle : w.IsIdle) (c : Command) :
    let opened := state (Act.openRedirects c w)
    w.Stays (w.OnWays c) (w.IsNamedBy c opened.files) opened := by
  have start : w.Stays (w.OnWays c) (w.IsNamedBy c w.files) w :=
    ⟨rfl, fun {channel file} stands => by simp [idle.get channel] at stands, .refl _⟩
  have first : w.Stays (w.OnWays c) (w.IsNamedBy c (state (openRedirect .err c.stderr w)).files)
      (state (openRedirect .err c.stderr w)) :=
    (openRedirect_tries w .err c.stderr).stays rfl start
  have session := (openRedirect_tries w .err c.stderr).session
  unfold openRedirects
  rw [bind_apply]
  cases ran : openRedirect .err c.stderr w with
  | error fault mid =>
    rw [ran] at first
    exact first
  | ok refusal mid =>
    rw [ran] at first session
    cases refusal with
    | some refusal => exact first
    | none => exact (openRedirect_tries mid .out c.stdout).stays session first

/-! ## Children -/

/-- The command comes to running the child, which begins in the world `before`. -/
def StartsChild (w : World) (c : Command) (before : World) (program : Program)
    (child : Child) : Prop :=
  ∃ name path opened, c.name = some name ∧ Builtin.ofName? name = none ∧
    openRedirects c w = .ok none opened ∧ (opened.candidates name).head? = some path ∧
    before = opened.beforeStart name path c.arguments ∧
    handoverFault? (Path.join opened.session.cwd path) (name :: c.arguments) before.session = none ∧
    prepareChild before (Path.join opened.session.cwd path) c.arguments = .ok (program, child)

theorem StartsChild.runsChild {c : Command} {before : World} {program : Program}
    {child : Child} (starts : w.StartsChild c before program child) :
    w.RunsChild c (child.run program before).1 := by
  obtain ⟨name, path, opened, named, free, opens, found, rfl, accepted, prepared⟩ := starts
  exact ⟨name, path, opened, program, child, named, free, opens, found, accepted, prepared, rfl⟩

end World

namespace Act

variable {w : World}

open World

section
variable {P : World → Prop} (same : Correspondence (Alone P))
  (flushes : ∀ {v : World}, P v → P v.flushTerminals)
include same flushes

/-- What builtins keep true the work of a command keeps true, if a child does that it starts. -/
theorem dispatch_state {name : String} {arguments : List String} {opened : World} (holds : P opened)
    (children : ∀ path program child, Builtin.ofName? name = none →
      (opened.candidates name).head? = some path →
      let before := opened.beforeStart name path arguments
      let file := Path.join opened.session.cwd path
      handoverFault? file (name :: arguments) before.session = none →
      prepareChild before file arguments = .ok (program, child) → P before →
      P (child.run program before).2) :
    P (state (dispatch .usual name arguments opened)) := by
  cases isBuiltin : Builtin.ofName? name with
  | some b =>
    have noted : P (opened.note .debug .execution
        s!"builtin {b.name} {Text.quoteList arguments}") :=
      (same.debug .execution _ (show Alone P opened opened from ⟨rfl, holds⟩)).2
    rw [dispatch_builtin .usual arguments isBuiltin]
    exact (same.run_keeps b arguments).state noted
  | none =>
    have searched : P (opened.afterSearch name) :=
      (same.debug .search _ (show Alone P opened opened from ⟨rfl, holds⟩)).2
    cases found : (opened.candidates name).head? with
    | none =>
      have keeps : Keeps P (do report s!"{name}: command not found"; return notFoundStatus) :=
        InStep.bind (same.report _) fun _ => InStep.pure _
      rw [dispatch_missing .usual arguments isBuiltin found]
      exact keeps.state searched
    | some path =>
      have started : P (opened.beforeStart name path arguments) :=
        (same.debug .execution _ (show Alone P _ _ from ⟨rfl, flushes searched⟩)).2
      rw [dispatch_found isBuiltin found]
      cases accepted : handoverFault? (Path.join opened.session.cwd path) (name :: arguments)
          (opened.beforeStart name path arguments).session with
      | some fault => exact started
      | none =>
        cases prepared : prepareChild (opened.beforeStart name path arguments)
            (Path.join opened.session.cwd path) arguments with
        | error e =>
          have keeps : Keeps P (launchStatus name (.error e)) :=
            same.launchStatus_respects name (.error e)
          exact keeps.state started
        | ok result =>
          obtain ⟨program, child⟩ := result
          have ran := children path program child isBuiltin found accepted prepared started
          exact (same.debug .execution _ (show Alone P _ _ from ⟨rfl, ran⟩)).2

theorem perform_state {c : Command} {name : String} (named : c.name = some name)
    (holds : P (state (openRedirects c w)))
    (children : ∀ before program child, w.StartsChild c before program child → P before →
      P (child.run program before).2) : P (state (perform .usual name c w)) := by
  unfold perform
  rw [bind_apply]
  cases ran : openRedirects c w with
  | error fault opened =>
    rw [ran] at holds
    exact holds
  | ok refusal opened =>
    rw [ran] at holds
    cases refusal with
    | some refusal =>
      have keeps : Keeps P (do report s!"minishell: {refusal.message}"; return failureStatus) :=
        InStep.bind (same.report _) fun _ => InStep.pure _
      exact keeps.state holds
    | none =>
      apply dispatch_state same flushes holds
      intro path program child free found before file accepted prepared started
      exact children before program child
        ⟨name, path, opened, named, free, ran, found, rfl, accepted, prepared⟩ started

end

theorem completing_files (act : Act Int) (w : World) :
    (state (completing act w)).files = (state (act w)).closeRedirects.files := by
  simp only [completing, bind_apply, closing]
  cases act w <;> rfl

/-- A command that runs no child, whether it returns or stops with a fault, leaves everything in
the tree as it is but for the files that its redirections name and for directories on the way to
these, which were missing. A redirection that does not count because a later one is for the same
stream does nothing: the command is the same without it. -/
theorem execute_develops (idle : w.IsIdle) {c : Command}
    (noChild : ∀ ending, ¬ w.RunsChild c ending) :
    let after := (execute c).run w
    w.files.Develops w.here (w.OnWays c) (w.IsNamedBy c after.files) after.files ∧
    ∀ (before rest : List Token) (t target : Token) (op : Operator), t.operator? = some op →
      (∃ t' ∈ rest, ∃ op', t'.operator? = some op' ∧ op'.channel = op.channel) →
      Command.ofTokens (before ++ t :: target :: rest) = .ok c →
      Command.ofTokens (before ++ rest) = .ok c := by
  refine ⟨?_, fun before rest t target op isOperator later reads =>
    Command.ofTokens_superseded isOperator later reads⟩
  unfold execute executeBy
  cases named : c.name with
  | none => exact .refl w.files
  | some name =>
    -- all that is done after the opening is done to the files that are open by then
    have opening := w.openRedirects_stays idle c
    dsimp only at opening
    have start : (state (openRedirects c w)).Stays (w.OnWays c)
        (w.IsNamedBy c (state (openRedirects c w)).files) (state (openRedirects c w)) :=
      ⟨rfl, opening.streams, .refl _⟩
    have allows : Allows ((state (openRedirects c w)).Stays (w.OnWays c)
      (w.IsNamedBy c (state (openRedirects c w)).files)) := Stays.allows _
    have closed := (perform_state allows.correspondence
      (fun holds => allows.onTerminal .err (·.flush) (allows.onTerminal .out (·.flush) holds)) named
      start fun _ _ _ starts => absurd starts.runsChild (noChild _)).closeRedirects
    dsimp only
    rw [run_eq_state, completing_files]
    have tree := closed.tree
    rw [opening.here] at tree
    refine (opening.mono (fun _ way => way) ?_).tree.trans (tree.mono (fun _ way => way) ?_)
    all_goals
      rintro id ⟨channel, r, isRedirect, namedBy, found⟩
      exact ⟨channel, r, isRedirect, namedBy, tree.find found⟩

/-- What `echo hi > old > sub/new` does to the file `old`. -/
theorem echo_leaves_superseded :
    let c : Command :=
      { name := some "echo", arguments := ["hi"], stdout := some ⟨"sub/new", false⟩ }
    let echo : List Token := [{ text := "echo" }, { text := "hi" }]
    let other : List Token := [{ text := ">" }, { text := "sub/new" }]
    Command.ofTokens (echo ++ { text := ">" } :: { text := "old" } :: other) = .ok c ∧
      Command.ofTokens (echo ++ other) = .ok c ∧
      ((execute c).run oneFile).files.node? 1 = oneFile.files.node? 1 := by
  intro c echo other
  have noChild : ∀ ending, ¬ oneFile.RunsChild c ending := by
    rintro ending ⟨name, path, opened, program, child, ⟨⟩, free, _⟩
    exact absurd free (by decide)
  have idle : oneFile.IsIdle := rfl
  obtain ⟨tree, same⟩ := execute_develops idle noChild
  have reads : Command.ofTokens (echo ++ { text := ">" } :: { text := "old" } :: other) = .ok c :=
    rfl
  refine ⟨reads, same echo other _ _ ⟨.out, false⟩ rfl ⟨_, .head _, _, rfl, rfl⟩ reads, ?_⟩
  apply tree.spared rfl
  -- the only file that a redirection names is the new one
  have named : (((execute c).run oneFile).files.find oneFile.here
      (oneFile.session.resolve "sub/new")).toOption = some 3 := by decide +kernel
  rintro ⟨channel, r, isRedirect, _, found⟩
  cases channel with
  | out =>
    cases isRedirect
    rw [found] at named
    cases named
  | err => cases isRedirect

end Act

end LineShell
