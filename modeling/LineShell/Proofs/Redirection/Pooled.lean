import LineShell.Proofs.Redirection.Transparency

/-!
# Both streams in one file

A command with both its streams appended to one file has that file open twice, each time with
buffers of its own. What is written comes at the end of what the file holds at that moment, by
whichever of the two it is written. So nothing is overwritten: the file holds what it held and
then what both streams have said, one among the other and each in its order (`World.PoolsBy`).

Main statement: `execute_pooled`.
-/

namespace LineShell

open Act

variable {held : NodeId → Option Bytes} {origin : World} {target : Target} {w v : World}
  {c : Channel}

/-- Where both streams are in one file only that one has to be spared. -/
theorem Spares.of_notMem {ids : List NodeId} (spared : target.node ∉ ids) :
    Spares ⟨some target, some target⟩ ids := by
  intro c other isTarget
  cases c <;> cases isTarget <;> exact spared

namespace World

/-- The worlds of two runs since `origin`, of which the other one has both streams in one file. Of
what a stream has said there a part is in the file, and the rest waits in its buffers. -/
structure PoolsBy (held : NodeId → Option Bytes) (origin : World) (target : Target)
    (w v : World) : Prop extends Beside held origin ⟨some target, some target⟩ w v where
  appends : ∀ {c file}, v.redirects.get c = some file → file.append = true
  pool : ∃ (parts : Both Bytes) (written : Bytes),
    held target.node = some (target.before ++ written) ∧ Merges parts.out parts.err written ∧
    ∀ c, Follows (fun _ => some (parts.get c)) (origin.terminals.get c).shown (origin.noted w c)
      (w.terminals.get c) (v.terminals.get c) true (some ⟨target.node, []⟩) (v.redirects.get c)

namespace PoolsBy

/-- Both open files are the one that is shared. -/
theorem node_eq (pools : PoolsBy held origin target w v) {file : OpenFile}
    (stands : v.redirects.get c = some file) : file.node = target.node := by
  obtain ⟨parts, written, _, _, streams⟩ := pools.pool
  have stream := streams c
  rw [stands] at stream
  obtain ⟨this, _, ⟨⟩, node, _⟩ := stream.of_some
  exact node

theorem isSome (pools : PoolsBy held origin target w v) (c : Channel) :
    ∃ file, v.redirects.get c = some file := by
  obtain ⟨parts, written, _, _, streams⟩ := pools.pool
  cases stands : v.redirects.get c with
  | some file => exact ⟨file, rfl⟩
  | none =>
    have stream := streams c
    rw [stands] at stream
    cases stream.of_none.1

/-- What one stream writes comes behind all that both have written. -/
theorem write (pools : PoolsBy held origin target w v) {file file' : OpenFile}
    {data passed bytes : Bytes} {g : Terminal → Terminal} (stands : v.redirects.get c = some file)
    (holds : held file.node = some data) (node : file'.node = file.node)
    (mode : file'.append = file.append)
    (kept : passed ++ file'.block ++ file'.text = file.block ++ file.text ++ bytes)
    (shown : (g (w.terminals.get c)).shown = (w.terminals.get c).shown ++ bytes) :
    PoolsBy (fun id => if id = file.node then some (data ++ passed) else held id) origin target
      (w.onTerminal c g)
      { v with
        files := v.files.withContents file.node (data ++ passed)
        redirects := v.redirects.set c (some file') } := by
  obtain ⟨parts, written, pooled, merges, streams⟩ := pools.pool
  have shared := pools.node_eq stands
  have appends' : file'.append = true := mode.trans (pools.appends stands)
  have content : data = target.before ++ written := by
    rw [shared, pooled] at holds
    exact (Option.some.inj holds).symm
  refine { pools.toBeside.withContents holds _ with
    appends := fun {d opened} stands' => ?_
    pool := ⟨parts.set c (parts.get c ++ passed), written ++ passed, ?_, merges.extend c passed,
      fun d => ?_⟩ }
  · rcases Both.get_set_eq_some stands' with ⟨rfl, rfl⟩ | ⟨_, before⟩
    · exact appends'
    · exact pools.appends before
  · rw [if_pos shared.symm, content, List.append_assoc]
  · have stream := streams d
    by_cases same : d = c
    · subst same
      rw [stands] at stream
      simp only [onTerminal_terminals, Both.get_set_self]
      exact stream.write rfl rfl (node.trans shared) (.inl appends') kept shown
    · simpa [same] using stream

theorem diversion : Diversion origin ⟨some target, some target⟩
    fun held => PoolsBy held origin target where
  beside pools := pools.toBeside
  opened pools stands := by
    obtain ⟨parts, written, pooled, _⟩ := pools.pool
    rw [pools.node_eq stands]
    exact ⟨_, pooled, .inl (pools.appends stands)⟩
  note source message pools := by
    obtain ⟨parts, written, pooled, merges, streams⟩ := pools.pool
    refine { pools.toBeside.note_debug source message with
      appends := fun stands => pools.appends (by simpa using stands)
      pool := ⟨parts, written, pooled, merges, fun c => ?_⟩ }
    rw [note_redirects]
    exact (streams c).note_debug pools.logs.2.1 pools.echo source message
  remember f pools := { pools with session := congrArg f pools.session }
  edit pools veils := { pools with files := veils }
  flushTerminals pools := by
    obtain ⟨parts, written, pooled, merges, streams⟩ := pools.pool
    refine { pools with pool := ⟨parts, written, pooled, merges, fun c => ?_⟩ }
    rw [flushTerminals_get, flushTerminals_get]
    exact (streams c).flush
  onTerminal g pools free := by
    obtain ⟨file, stands⟩ := pools.isSome _
    cases free.symm.trans stands
  write pools stands holds node mode _ kept shown := pools.write stands holds node mode kept shown

end PoolsBy

/-! ## Opening and closing -/

/-- Before anything is said two empty files at the end of the shared one stand in for the
streams. -/
theorem PoolsBy.start (idle : w.IsIdle) (raw : w.console.textOnly = false)
    (plain : w.console.colors = false)
    (holds : w.files.contents? target.node = some target.before) {redirects : Both (Option OpenFile)}
    (fresh : ∀ c, ∃ file, redirects.get c = some file ∧ file.node = target.node ∧
      file.append = true ∧ file.block = [] ∧ file.text = []) :
    PoolsBy (fun id => if id = target.node then some target.before else none) w target w
      { w with redirects } := by
  have beside : Beside _ w ⟨some target, some target⟩ w w :=
    .refl idle raw plain (.self holds) fun {id _} known => by
      by_cases same : id = target.node
      · exact ⟨.out, target, rfl, same.symm⟩
      · simp [same] at known
  refine { beside with
    appends := fun {c file} stands => ?_
    pool := ⟨⟨[], []⟩, [], by simp, .nil, fun c => ?_⟩ }
  · obtain ⟨file', stands', _, appends, _⟩ := fresh c
    obtain rfl := Option.some.inj (stands.symm.trans stands')
    exact appends
  · obtain ⟨file, stands, node, appends, block, text⟩ := fresh c
    have nothing : (⟨[], []⟩ : Both Bytes).get c = [] := by cases c <;> rfl
    rw [stands, noted_self, nothing]
    refine .file node rfl (.inl appends) (by simp [block, text]) .nil ?_ (by simp)
    rw [List.append_nil]

/-- A file is opened for both streams and nothing has been written to it. -/
theorem openRedirects_pools (idle : w.IsIdle) (raw : w.console.textOnly = false)
    (plain : w.console.colors = false) {stdout stderr : Redirect}
    (appends : stdout.append = true) (appends' : stderr.append = true)
    (out : w.Diverts (some stdout) (some target)) (err : w.Diverts (some stderr) (some target))
    (name : Option String) (arguments : List String) : ∃ v,
      openRedirects { name, arguments, stdout := some stdout, stderr := some stderr } w =
        .ok none v ∧
      Related (fun held => PoolsBy held w target) w v ∧ v.JustOpened := by
  cases out with
  | file named clean leads before =>
  cases err with
  | file named' clean' leads' before' =>
    rw [if_pos appends] at before
    let mid := w.diverted .err stderr target.node w.files
    let opened := mid.diverted .out stdout target.node w.files
    have first := openRedirect_of_leadsTo named' clean' leads' .err
    have second := openRedirect_of_leadsTo (w := mid) named clean leads .out
    rw [appends', FileSystem.prepared_append] at first
    rw [appends, FileSystem.prepared_append] at second
    have fresh : ∀ c, ∃ file, opened.redirects.get c = some file ∧ file.node = target.node ∧
        file.append = true ∧ file.block = [] ∧ file.text = [] := by
      intro c
      cases c with
      | out => exact ⟨_, rfl, rfl, appends, rfl, rfl⟩
      | err => exact ⟨_, rfl, rfl, appends', rfl, rfl⟩
    refine ⟨opened, ?_, ⟨_, .start idle raw plain before fresh⟩, fun c file stands => ?_⟩
    · unfold openRedirects
      rw [bind_apply, first]
      exact second
    · obtain ⟨file', stands', _, _, empty⟩ := fresh c
      obtain rfl := Option.some.inj (stands.symm.trans stands')
      exact empty

/-- When both files are closed the file that they share holds all that was said. -/
theorem PoolsBy.closeRedirects (pools : PoolsBy held origin target w v) :
    ∃ (said all : Both Bytes) (mixed : Bytes), Merges said.out said.err mixed ∧
      v.closeRedirects =
        { v with
          files := v.files.withContents target.node (target.before ++ mixed)
          redirects := ⟨none, none⟩ } ∧
      ∀ c, Merges (said.get c) (origin.noted w c) (all.get c) ∧
        (v.terminals.get c).shown = (origin.terminals.get c).shown ++ origin.noted w c ∧
        (w.terminals.get c).shown = (origin.terminals.get c).shown ++ all.get c := by
  obtain ⟨parts, written, pooled, merges, streams⟩ := pools.pool
  obtain ⟨out, isOut⟩ := pools.isSome .out
  obtain ⟨err, isErr⟩ := pools.isSome .err
  have holds := pools.files.contents?_eq pooled
  have regular : (v.files.contents? target.node).isSome := by simp [holds]
  -- the file for the errors is closed first, and then the other one writes behind it
  let mid : World :=
    { v with
      files := v.files.withContents target.node
        (target.before ++ written ++ err.block ++ err.text)
      redirects := v.redirects.set .err none }
  have first : v.closeRedirect .err = mid := by
    rw [← pools.node_eq isErr] at holds
    rw [closeRedirect_eq isErr holds (.inl (pools.appends isErr)), pools.node_eq isErr]
  have second : mid.closeRedirect .out =
      { v with
        files := v.files.withContents target.node
          (target.before ++ written ++ err.block ++ err.text ++ out.block ++ out.text)
        redirects := ⟨none, none⟩ } := by
    have isOut' : mid.redirects.get .out = some out := isOut
    have holds' : mid.files.contents? out.node =
        some (target.before ++ written ++ err.block ++ err.text) := by
      rw [pools.node_eq isOut]
      exact FileSystem.contents?_withContents regular _
    rw [closeRedirect_eq isOut' holds' (.inl (pools.appends isOut)), pools.node_eq isOut]
    simp only [mid, FileSystem.withContents_withContents]
    rfl
  obtain ⟨saidOut, allOut, keptOut, said⟩ := (isOut ▸ streams .out).exists_said rfl
  obtain ⟨saidErr, allErr, keptErr, said'⟩ := (isErr ▸ streams .err).exists_said rfl
  refine ⟨⟨saidOut, saidErr⟩, ⟨allOut, allErr⟩,
    written ++ (err.block ++ err.text) ++ (out.block ++ out.text), ?_, ?_, fun c => ?_⟩
  · have whole := (merges.extend .err (err.block ++ err.text)).extend .out (out.block ++ out.text)
    simp only [List.nil_append] at keptOut keptErr
    rw [← keptOut, ← keptErr]
    simpa [Both.get, Both.set] using whole
  · rw [World.closeRedirects, first, second]
    simp
  · cases c with
    | out => exact said
    | err => exact said'

/-! ## Whole commands -/

/-- A command with both its streams appended to one file that is there, and which it does not
touch otherwise, loses nothing: it returns what it returns without that and leaves the same
session and the same tree but for the file, to which the bytes that both streams would have shown
are added, one among the other and each in its order. Nothing of them is shown. Records that are
shown are not of the command: they come to the standard error of the shell in any case. -/
theorem execute_pooled {v' : World} {name : String} {arguments : List String}
    {stdout stderr : Redirect} {status : Int}
    (idle : w.IsIdle) (raw : w.console.textOnly = false) (plain : w.console.colors = false)
    (appends : stdout.append = true) (appends' : stderr.append = true)
    (out : w.Diverts (some stdout) (some target)) (err : w.Diverts (some stderr) (some target))
    (spared : target.node ∉ w.touched name arguments)
    (ran : execute { name := some name, arguments, stdout := some stdout, stderr := some stderr } w
      = .ok status v') :
    ∃ (w' : World) (said said' shown mixed : Bytes),
      execute { name := some name, arguments } w = .ok status w' ∧
      w'.terminals.out.shown = w.terminals.out.shown ++ said ∧
      w'.terminals.err.shown = w.terminals.err.shown ++ shown ∧
      Merges said' (w.noted w' .err) shown ∧
      (w.HidesDebug → w.noted w' .err = [] ∧ shown = said') ∧
      Merges said said' mixed ∧
      (∃ access data program program',
        w'.files.node? target.node = some (.file access data program) ∧
        v'.files.node? target.node =
          some (.file access (target.before ++ mixed).toArray program')) ∧
      v'.terminals.out.shown = w.terminals.out.shown ∧
      v'.terminals.err.shown = w.terminals.err.shown ++ w.noted w' .err ∧
      v'.session = w'.session ∧ v'.records = w'.records ∧ v'.IsIdle ∧
      v'.files.next = w'.files.next ∧
      ∀ id, id ≠ target.node → v'.files.node? id = w'.files.node? id := by
  obtain ⟨opened, opens, related, fresh⟩ :=
    openRedirects_pools idle raw plain appends appends' out err (some name) arguments
  have worked := PoolsBy.diversion.dispatch_sameOutcome related fresh (.of_notMem spared)
  -- the run with the redirections ends well, and so does the other one
  rw [execute, executeBy_opened rfl opens] at ran
  obtain ⟨done', ended', rfl⟩ := exists_of_completing ran
  rw [ended'] at worked
  obtain ⟨done, ended, held, pools⟩ := worked.of_other_ok
  obtain ⟨said, all, mixed, merges, closed, streams⟩ := pools.closeRedirects
  have nothing : w.HidesDebug → w.noted done .err = [] :=
    fun hides => noted_of_hidden pools.logs hides .err
  have plainly : execute { name := some name, arguments } w =
      .ok status { done with session := { done.session with status } } :=
    completing_apply ((perform_plain _ _).trans ended) pools.idle
  obtain ⟨outMerges, outStill, outShown⟩ := streams .out
  obtain ⟨errMerges, errStill, errShown⟩ := streams .err
  rw [outMerges.eq_said rfl] at outShown
  rw [closed]
  refine ⟨_, said.out, said.err, all.err, mixed, plainly, outShown, errShown, errMerges,
    fun hides => ⟨nothing hides, errMerges.eq_said (nothing hides)⟩, merges, ?_,
    outStill.trans (List.append_nil _), errStill,
    congrArg (fun s : Session => { s with status }) pools.session, pools.records, rfl, ?_,
    fun id other => ?_⟩
  · obtain ⟨parts, written, pooled, _⟩ := pools.pool
    obtain ⟨access, data, program, program', before, after⟩ := pools.files.veiled pooled
    exact ⟨access, data, program, program', before, FileSystem.node?_withContents after _⟩
  · exact (FileSystem.next_withContents _ _ _).trans pools.files.next
  · -- only the shared file is known to hold something else in the two runs
    have apart : Spares ⟨some target, some target⟩ [id] := .of_notMem (by simpa using other.symm)
    have free : held id = none := pools.held_eq_none apart (.head _)
    exact (FileSystem.node?_withContents_of_ne other _).trans (pools.files.apart free)

/-- What `type echo nothing >> out 2>> out` adds to a file: an answer and an error. -/
theorem type_pooled : ∃ (v' : World) (mixed : Bytes) (access : Access) (program : Option Program),
    execute { name := some "type", arguments := ["echo", "nothing"],
              stdout := some ⟨"out", true⟩, stderr := some ⟨"out", true⟩ } twoFiles = .ok 1 v' ∧
      Merges (Utf8.encode "echo is a shell builtin\n") (Utf8.encode "nothing: not found\n") mixed ∧
      v'.files.node? 1 = some (.file access (Utf8.encode "old" ++ mixed).toArray program) := by
  let target : Target := ⟨1, Utf8.encode "old"⟩
  have diverts : twoFiles.Diverts (some ⟨"out", true⟩) (some target) :=
    .file (by decide) (by decide +kernel) ⟨rfl, _, _, _, rfl, rfl⟩ (by decide +kernel)
  have idle : twoFiles.IsIdle := rfl
  have hides : twoFiles.HidesDebug := nofun
  have untouched : target.node ∉ twoFiles.touched "type" ["echo", "nothing"] := by decide +kernel
  let plain : Command := { name := some "type", arguments := ["echo", "nothing"] }
  let both : Command := { plain with stdout := some ⟨"out", true⟩, stderr := some ⟨"out", true⟩ }
  have ran : execute both twoFiles = .ok 1 ((execute both).run twoFiles) := by decide +kernel
  obtain ⟨w', said, said', shown, mixed, plainly, out, err, _, unmixed, merges, holds, _⟩ :=
    execute_pooled idle rfl rfl rfl rfl diverts diverts untouched ran
  obtain ⟨access, _, _, program, _, after⟩ := holds
  -- without the file the answer is on the one terminal and the error on the other
  have shows : ((execute plain).run twoFiles).shown =
      ⟨Utf8.encode "echo is a shell builtin\n", Utf8.encode "nothing: not found\n"⟩ := by
    decide +kernel
  have isRun : (execute plain).run twoFiles = w' := by simp [Act.run, plain, plainly]
  rw [isRun] at shows
  obtain ⟨rfl, rfl⟩ := Both.mk.inj ((congrArg₂ Both.mk out err).symm.trans shows)
  refine ⟨_, mixed, access, program, ran, ?_, after⟩
  rw [← (unmixed hides).2] at merges
  exact merges

end World

end LineShell
