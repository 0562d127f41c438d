import LineShell.Proofs.Redirection.Mirrors
import LineShell.Proofs.Redirection.Opening

/-!
# Redirections are transparent

A command does the same whether its streams are those of the shell or files: opening a file
that is there begins a `World.Mirrors` (`openRedirect_mirrors`), the work of the command keeps
it (`dispatch_mirrors`), and closing writes what is still in the buffers (`closeRedirect`).

Main statement: `execute_redirected`.
-/

namespace LineShell

open Act

variable {held : NodeId → Option Bytes} {origin : World} {targets : Both (Option Target)}
  {w v : World}

namespace World

/-- A redirection makes a file stand in for a stream: a regular file that is there already and
may be written. What it held is thrown away, unless it is appended to. -/
inductive Diverts (w : World) : Option Redirect → Option Target → Prop
  | none : w.Diverts none none
  | file {r : Redirect} {target : Target} (named : ¬ Path.endsInSlash r.path)
      (clean : ¬ holdsNull (w.session.resolve r.path))
      (leads : w.files.LeadsTo w.here (w.session.resolve r.path) target.node)
      (before : if r.append then w.files.contents? target.node = some target.before
        else target.before = []) : w.Diverts (some r) (some target)

/-! ## Opening -/

/-- Opening a file makes it stand in for a stream. -/
theorem MirrorsBy.divert (mirrors : MirrorsBy held w targets (fun _ => true) w v) {c : Channel}
    (shared : targets.get c = none) {target : Target} {files : FileSystem} {file : OpenFile}
    (apart : ∀ d other, targets.get d = some other → other.node ≠ target.node)
    (veils : w.files.Veils
      (fun id => if id = target.node then some target.before else held id) files)
    (node : file.node = target.node)
    (atEnd : file.append = true ∨ target.before = []) (start : file.offset = 0)
    (block : file.block = []) (text : file.text = []) :
    MirrorsBy (fun id => if id = target.node then some target.before else held id) w
      (targets.set c (some target)) (fun _ => true) w
      { v with files, redirects := v.redirects.set c (some file) } := by
  refine { mirrors with
    files := veils
    only := fun {id data} holds => ?_
    apart := fun {d e other other'} diverted diverted' same => ?_
    streams := fun d => ?_ }
  · by_cases same : id = target.node
    · exact ⟨c, target, by simp, same.symm⟩
    · rw [if_neg same] at holds
      obtain ⟨d, other, diverted, same'⟩ := mirrors.only holds
      have different : d ≠ c := by
        rintro rfl
        simp [shared] at diverted
      exact ⟨d, other, by simpa [different] using diverted, same'⟩
  · -- two streams in one file: neither can be the new one
    by_cases first : d = c
    · by_cases second : e = c
      · exact first.trans second.symm
      · obtain rfl : target = other := by simpa [first] using diverted
        have old : targets.get e = some other' := by simpa [second] using diverted'
        exact absurd same.symm (apart e other' old)
    · have old : targets.get d = some other := by simpa [first] using diverted
      by_cases second : e = c
      · obtain rfl : target = other' := by simpa [second] using diverted'
        exact absurd same (apart d other old)
      · exact mirrors.apart old (by simpa [second] using diverted') same
  · have stream := mirrors.streams d
    by_cases same : d = c
    · subst same
      rw [shared] at stream
      simp only [Both.get_set_self]
      have kept : target.before ++ file.block ++ file.text = target.before ++ [] := by
        simp [block, text]
      generalize v.redirects.get d = old at stream
      cases stream with
      | shell same =>
        rw [noted_self]
        refine .file node (if_pos rfl) ?_ kept .nil (by simp [same]) (by simp)
        exact atEnd.imp_right fun empty => by simp [start, empty]
    · simp only [ne_eq, same, not_false_eq_true, Both.get_set_of_ne]
      exact stream.of_away fun diverted => apart d _ diverted

/-- The redirection of a stream that both runs still share is carried out. -/
theorem openRedirect_mirrors (related : Mirrors w targets w v) (fresh : v.JustOpened)
    {c : Channel} (shared : targets.get c = none) {r : Option Redirect} {target : Option Target}
    (diverts : w.Diverts r target)
    (apart : ∀ d other this, targets.get d = some other → target = some this →
      other.node ≠ this.node) :
    ∃ v', openRedirect c r v = .ok none v' ∧ Mirrors w (targets.set c target) w v' ∧
      v'.JustOpened := by
  cases diverts with
  | none =>
    have same : targets.set c none = targets := by
      rw [← shared]
      cases c <;> rfl
    rw [same]
    exact ⟨v, rfl, related, fresh⟩
  | @file r target named clean leads before =>
    obtain ⟨held, mirrors⟩ := related
    obtain ⟨access, data, program, found, writable⟩ := leads.writable
    -- no other stream is in that file yet
    have free : held target.node = none := by
      cases holds : held target.node with
      | none => rfl
      | some bytes =>
        obtain ⟨d, other, diverted, same⟩ := mirrors.only holds
        exact absurd same (apart d other target diverted rfl)
    have opened : openRedirect c (some r) v =
        .ok none (v.diverted c r target.node (v.files.prepared target.node r.append)) := by
      rw [← mirrors.session] at clean leads
      rw [← mirrors.here] at leads
      exact openRedirect_of_leadsTo named clean (mirrors.files.leadsTo leads) c
    have content : (if r.append then data.toList else []) = target.before := by
      cases append : r.append with
      | true => simpa [append, FileSystem.contents?, found] using before
      | false => simpa [append, eq_comm] using before
    have veils := mirrors.files.prepared found free r.append
    rw [content] at veils
    let file : OpenFile :=
      { path := v.session.resolve r.path, node := target.node, append := r.append }
    have atEnd : file.append = true ∨ target.before = [] := by
      cases append : r.append with
      | true => exact .inl append
      | false => exact .inr (by simpa [append] using before)
    have others : ∀ d other, targets.get d = some other → other.node ≠ target.node :=
      fun d other diverted => apart d other target diverted rfl
    refine ⟨_, opened, ⟨_, mirrors.divert shared others veils rfl atEnd rfl rfl rfl⟩, ?_⟩
    intro d file' stands
    rcases Both.get_set_eq_some stands with ⟨rfl, rfl⟩ | ⟨_, open_⟩
    · exact ⟨rfl, rfl⟩
    · exact fresh d file' open_

/-! ## Closing -/

/-- Closing the file of a stream leaves in it all that was written to the stream. -/
theorem MirrorsBy.closeRedirect {isOpen : Channel → Bool}
    (mirrors : MirrorsBy held origin targets isOpen w v) {c : Channel} (open_ : isOpen c = true) :
    ∃ held, MirrorsBy held origin targets (fun d => if d = c then false else isOpen d) w
      (v.closeRedirect c) := by
  have stream := mirrors.streams c
  rw [open_] at stream
  cases stands : v.redirects.get c with
  | none =>
    rw [stands] at stream
    obtain ⟨shared, equal⟩ := stream.of_none
    have unchanged : v.closeRedirect c = v := by simp [World.closeRedirect, stands]
    rw [unchanged]
    refine ⟨held, { mirrors with streams := fun d => ?_ }⟩
    by_cases same : d = c
    · subst same
      rw [shared, stands]
      exact .shell equal
    · simpa [same] using mirrors.streams d
  | some file =>
    rw [stands] at stream
    obtain ⟨target, data, diverted, node, holds, atEnd⟩ := mirrors.exists_target stands
    rw [← node] at holds
    rw [closeRedirect_eq stands (mirrors.files.contents?_eq holds) atEnd]
    rw [node] at holds ⊢
    refine ⟨_, { mirrors.toBeside.withContents holds _ with
      apart := mirrors.apart
      streams := fun d => ?_ }⟩
    by_cases same : d = c
    · subst same
      rw [diverted] at stream ⊢
      simp only [Both.get_set_self, if_true]
      exact stream.close holds (if_pos rfl)
    · simp only [ne_eq, same, not_false_eq_true, Both.get_set_of_ne, if_false]
      exact (mirrors.streams d).of_away fun diverted' => mirrors.node_ne diverted diverted' same

theorem Mirrors.closeRedirects (related : Mirrors origin targets w v) :
    ∃ held, MirrorsBy held origin targets (fun _ => false) w v.closeRedirects := by
  obtain ⟨held, mirrors⟩ := related
  obtain ⟨held', closed⟩ := mirrors.closeRedirect (c := .err) rfl
  obtain ⟨held'', closed'⟩ := closed.closeRedirect (c := .out) rfl
  refine ⟨held'', ?_⟩
  have all : (fun d : Channel => if d = .out then false else if d = .err then false else true) =
      fun _ => false := by
    funext d
    cases d <;> rfl
  rwa [all] at closed'

/-! ## Whole commands -/

/-- Without any redirection a run goes with itself. -/
theorem Mirrors.refl (idle : w.IsIdle) (raw : w.console.textOnly = false)
    (plain : w.console.colors = false) : Mirrors w ⟨none, none⟩ w w := by
  have nothing : ∀ c, (⟨none, none⟩ : Both (Option Target)).get c = none := by
    intro c
    cases c <;> rfl
  refine ⟨fun _ => none, .refl idle raw plain ⟨rfl, fun _ => rfl, by simp⟩ (by simp), ?_,
    fun c => ?_⟩
  · intro c d target target' diverted
    simp [nothing] at diverted
  · rw [nothing, idle.get]
    exact .shell rfl

theorem openRedirects_mirrors (idle : w.IsIdle) (raw : w.console.textOnly = false)
    (plain : w.console.colors = false) (command : Command)
    (out : w.Diverts command.stdout targets.out) (err : w.Diverts command.stderr targets.err)
    (apart : ∀ a b, targets.out = some a → targets.err = some b → a.node ≠ b.node) :
    ∃ v, openRedirects command w = .ok none v ∧ Mirrors w targets w v ∧ v.JustOpened := by
  have fresh : w.JustOpened := by
    intro c file stands
    simp [idle.get c] at stands
  -- the file for the errors is opened first
  obtain ⟨v, opened, related, fresh⟩ := openRedirect_mirrors (Mirrors.refl idle raw plain) fresh
    (c := .err) rfl err
    (fun d other this diverted _ => by cases d <;> simp [Both.get] at diverted)
  have apart' : ∀ d other this, (⟨none, targets.err⟩ : Both (Option Target)).get d = some other →
      targets.out = some this → other.node ≠ this.node := by
    intro d other this diverted isThis same
    cases d with
    | out => simp [Both.get] at diverted
    | err => exact apart this other isThis diverted same.symm
  obtain ⟨v', opened', related', fresh'⟩ :=
    openRedirect_mirrors related fresh (c := .out) rfl out apart'
  exact ⟨v', by simp [openRedirects, opened, opened'], related', fresh'⟩

/-- A command whose streams go to files which are there already does what it does without
that: it returns the same, leaves the same session and the same tree but for those files, and
each of them holds, after what was kept of its content, exactly the bytes that the stream
would have shown. Nothing of them is shown, and a stream that is not redirected shows the
same. Records that are shown are not of the command: they come to the standard error of the
shell in any case. -/
theorem execute_redirected {w' : World} {name : String} {arguments : List String}
    {stdout stderr : Option Redirect} {status : Int}
    (idle : w.IsIdle) (raw : w.console.textOnly = false) (plain : w.console.colors = false)
    (out : w.Diverts stdout targets.out) (err : w.Diverts stderr targets.err)
    (apart : ∀ a b, targets.out = some a → targets.err = some b → a.node ≠ b.node)
    (spared : Spares targets (w.touched name arguments))
    (ran : execute { name := some name, arguments } w = .ok status w') :
    ∃ v', execute { name := some name, arguments, stdout, stderr } w = .ok status v' ∧
      v'.session = w'.session ∧ v'.records = w'.records ∧ v'.IsIdle ∧
      (∀ c, targets.get c = none → v'.terminals.get c = w'.terminals.get c) ∧
      (∀ c target, targets.get c = some target → ∃ said shown access data program program',
        Merges said (w.noted w' c) shown ∧
        (c = .out ∨ w.HidesDebug → w.noted w' c = [] ∧ shown = said) ∧
        (w'.terminals.get c).shown = (w.terminals.get c).shown ++ shown ∧
        (v'.terminals.get c).shown = (w.terminals.get c).shown ++ w.noted w' c ∧
        w'.files.node? target.node = some (.file access data program) ∧
        v'.files.node? target.node =
          some (.file access (target.before ++ said).toArray program')) ∧
      v'.files.next = w'.files.next ∧
      ∀ id, (∀ c target, targets.get c = some target → target.node ≠ id) →
        v'.files.node? id = w'.files.node? id := by
  let command : Command := { name := some name, arguments, stdout, stderr }
  obtain ⟨opened, opens, related, fresh⟩ :=
    openRedirects_mirrors idle raw plain command out err apart
  have worked := dispatch_mirrors related fresh spared
  -- the run without redirections ends well, and so does its work
  rw [execute, executeBy] at ran
  simp only [completing, bind_apply, closing, perform_plain] at ran
  cases ended : dispatch .usual name arguments w with
  | error fault ended' => simp [ended] at ran
  | ok value done =>
    rw [ended] at worked
    obtain ⟨done', ended', related'⟩ := worked.of_ok
    obtain ⟨held, closed⟩ := related'.closeRedirects
    simp only [ended, closed.idle.closeRedirects, remember_apply, pure_apply] at ran
    obtain ⟨rfl, rfl⟩ : value = status ∧ _ = w' := by simpa using ran
    let final := done'.closeRedirects
    refine ⟨{ final with session := { final.session with status := value } }, ?_, ?_, ?_, ?_,
      fun c shared => ?_, fun c target diverted => ?_, ?_, fun id other => ?_⟩
    · rw [execute, executeBy]
      simp only [completing, bind_apply, closing, perform, opens, ended', command]
      rfl
    · exact congrArg (fun s : Session => { s with status := value }) closed.session
    · exact closed.records
    · exact done'.closeRedirects_isIdle
    · have stream := closed.streams c
      rw [shared] at stream
      change final.terminals.get c = done.terminals.get c
      generalize final.redirects.get c = file at stream
      cases stream with
      | shell same => exact same
    · -- a closed file holds what was in it and then all that the command said
      have stream := closed.streams c
      rw [diverted] at stream
      generalize final.redirects.get c = file at stream
      cases stream with
      | @closed _ said shown holds merges still grown =>
        obtain ⟨access, data, program, program', before, after⟩ := closed.files.veiled holds
        refine ⟨said, shown, access, data, program, program', merges, fun unmixed => ?_, grown,
          still, before, after⟩
        have nothing : w.noted done c = [] := by
          cases unmixed with
          | inl isOut => exact isOut ▸ rfl
          | inr hides => exact noted_of_hidden closed.logs hides c
        exact ⟨nothing, merges.eq_said nothing⟩
    · exact closed.files.next
    · -- a file that no stream went to is the same
      apply closed.files.apart
      cases holds : held id with
      | none => rfl
      | some bytes =>
        obtain ⟨c, target, diverted, same⟩ := closed.only holds
        exact absurd same (other c target diverted)

/-- A shell in a directory with two files, of which one holds the text `old`. -/
def twoFiles : World :=
  let open_ : Access := FileSystem.fullAccess
  { files := ⟨#[.directory open_ FileSystem.root "" [("out", 1), ("err", 2)],
      .file open_ (Utf8.encode "old").toArray none, .file open_ #[] none]⟩
    here := FileSystem.root
    session := { cwd := "/", env := [] } }

theorem type_redirected : ∃ (v' : World) (said said' : Bytes) (access access' : Access)
    (program program' : Option Program),
    execute { name := some "type", arguments := ["echo", "nothing"],
              stdout := some ⟨"out", true⟩, stderr := some ⟨"err", false⟩ } twoFiles = .ok 1 v' ∧
      v'.terminals.out.shown = [] ∧ v'.terminals.err.shown = [] ∧
      v'.files.node? 1 = some (.file access (Utf8.encode "old" ++ said).toArray program) ∧
      v'.files.node? 2 = some (.file access' said'.toArray program') := by
  let targets : Both (Option Target) := ⟨some ⟨1, Utf8.encode "old"⟩, some ⟨2, []⟩⟩
  have out : twoFiles.Diverts (some ⟨"out", true⟩) targets.out :=
    .file (by decide) (by decide +kernel) ⟨rfl, _, _, _, rfl, rfl⟩ (by decide +kernel)
  have err : twoFiles.Diverts (some ⟨"err", false⟩) targets.err :=
    .file (by decide) (by decide +kernel) ⟨rfl, _, _, _, rfl, rfl⟩ (by decide +kernel)
  have idle : twoFiles.IsIdle := rfl
  have hides : twoFiles.HidesDebug := nofun
  have apart : ∀ a b, targets.out = some a → targets.err = some b → a.node ≠ b.node := by
    rintro a b ⟨⟩ ⟨⟩
    decide
  have untouched : twoFiles.touched "type" ["echo", "nothing"] = [] := by decide +kernel
  have ends : (match execute { name := some "type", arguments := ["echo", "nothing"] } twoFiles with
      | .ok status _ => status == 1
      | .error _ _ => false) = true := by decide +kernel
  cases ran : execute { name := some "type", arguments := ["echo", "nothing"] } twoFiles with
  | error fault w' => simp [ran] at ends
  | ok status w' =>
    obtain rfl : status = 1 := by simpa [ran] using ends
    obtain ⟨v', ran', _, _, _, _, diverted, _, _⟩ := execute_redirected idle rfl rfl out err apart
      (by simp [Spares, untouched]) ran
    obtain ⟨said, _, access, _, _, program, _, unmixed, _, still, _, after⟩ := diverted .out _ rfl
    obtain ⟨said', _, access', _, _, program', _, unmixed', _, still', _, after'⟩ :=
      diverted .err _ rfl
    rw [(unmixed (.inr hides)).1] at still
    rw [(unmixed' (.inr hides)).1] at still'
    exact ⟨v', said, said', access, access', program, program', ran', still, still', after, after'⟩

end World

end LineShell
