import LineShell.Proofs.Execution.Course
import LineShell.Proofs.Path.Join

/-!
# What `type` reports is what is run

`type` looks a name up by a way of its own. The three things that it can say about a single
name (`World.TypePrints` for a line on the standard output, `World.TypeNames` for the path of
a program, `World.TypeMisses`) are set against the three courses that a command of that name
can take.

Main statement: `type_reports_course`. The path that is said is tested and launched through
different joins; `join_assoc` makes the two the same text.
-/

namespace LineShell

theorem Utf8.encode_injective {s t : String} (h : encode s = encode t) : s = t := by
  have same : s.toList.utf8Encode = t.toList.utf8Encode := congrArg List.toByteArray h
  rw [String.utf8Encode_toList, String.utf8Encode_toList] at same
  exact String.toByteArray_inj.1 same

/-! ## Programs of a name -/

namespace World

variable {w : World} {name path : String}

/-- A program of a name is the name itself, if that is a path, or the name in one of the
directories that are searched. -/
theorem mem_candidates : path ∈ w.candidates name ↔ name ≠ "" ∧
    if '/' ∈ name.toList then path = name ∧ w.isExecutable (Path.join w.session.cwd name)
    else ∃ dir ∈ searchDirectories w.session.env,
      w.isExecutable (Path.join (Path.join w.session.cwd dir) name) ∧
        Path.join dir name = path := by
  unfold candidates
  by_cases empty : name = ""
  · simp [empty]
  · by_cases slash : '/' ∈ name.toList
    · by_cases executable : w.isExecutable (Path.join w.session.cwd name)
      · simp [empty, slash, executable]
      · simp [empty, slash, executable]
    · simp [empty, slash, and_assoc]

/-- The path of a program, seen from the directory of the session, is the path that was
tested. -/
theorem isExecutable_of_mem_candidates (h : path ∈ w.candidates name) :
    w.isExecutable (Path.join w.session.cwd path) := by
  obtain ⟨_, found⟩ := mem_candidates.1 h
  split at found
  · obtain ⟨rfl, executable⟩ := found
    exact executable
  · -- tested as `(cwd / dir) / name`, launched as `cwd / (dir / name)`
    obtain ⟨dir, _, executable, rfl⟩ := found
    rwa [← Path.join_assoc]

theorem slash_mem_of_mem_candidates (h : path ∈ w.candidates name) : '/' ∈ path.toList := by
  obtain ⟨_, found⟩ := mem_candidates.1 h
  split at found
  case isTrue slash =>
    obtain ⟨rfl, _⟩ := found
    exact slash
  case isFalse =>
    obtain ⟨dir, listed, _, rfl⟩ := found
    have nonempty : dir ≠ "" := by simpa using (List.mem_filter.1 listed).2
    exact Path.slash_mem_join nonempty name

/-- An absolute path names the same file from every directory. -/
theorem hasExecutable_of_isAbsolute (files : FileSystem) {path : String}
    (h : Path.isAbsolute path) (here there : NodeId) :
    files.hasExecutable here path = files.hasExecutable there path := by
  have start : ∀ here, FileSystem.startOf here path = FileSystem.root := fun _ => if_pos h
  simp only [FileSystem.hasExecutable, FileSystem.lookup, FileSystem.find, FileSystem.locate, start]

end World

/-! ## What `type` does with one name -/

namespace Builtin

open Act

variable {w : World} {name : String}

theorem describeName_builtin (free : w.redirects.get .out = none) {b : Builtin}
    (h : ofName? name = some b) :
    describeName false name w = .ok true
      (w.onTerminal .out (·.print (Utf8.encode (s!"{name} is a shell builtin" ++ "\n")))) := by
  simp [describeName, meanings, h, printLines, printLine_apply free]

theorem describeName_program (free : w.redirects.get .out = none) (h : ofName? name = none)
    {path : String} (h' : (w.candidates name).head? = some path) :
    describeName false name w = .ok true
      ((w.afterSearch name).onTerminal .out
        (·.print (Utf8.encode (s!"{name} is {path}" ++ "\n")))) := by
  have still : (w.afterSearch name).redirects.get .out = none := by
    simpa [World.afterSearch] using free
  simp [describeName, meanings, programsOf, findProgram_apply, h, h', printLines,
    printLine_apply still]

theorem describeName_missing (free : w.redirects.get .err = none) (h : ofName? name = none)
    (h' : (w.candidates name).head? = none) :
    describeName false name w = .ok false
      ((w.afterSearch name).onTerminal .err
        fun t => (t.print (w.errorLine s!"{name}: not found")).flush) := by
  have still : (w.afterSearch name).redirects.get .err = none := by
    simpa [World.afterSearch] using free
  have line : ∀ m, (w.afterSearch name).errorLine m = w.errorLine m := by
    simp [World.afterSearch, World.errorLine]
  simp [describeName, meanings, programsOf, findProgram_apply, h, h', printLines,
    report_apply still, line]

theorem runType_single (notFlag : name ≠ "-a") (w : World) :
    runType [name] w = (do
      let found ← describeName false name
      flush .out
      return if found then 0 else 1 : Act Int) w := by
  have kept : [name].dropWhile (fun n => decide (n = allFlag)) = [name] := by
    simp [allFlag, notFlag]
  simp [runType, kept, describeNames]

end Builtin

/-! ## What is said -/

namespace World

variable (w : World) (name : String)

/-- `type name` succeeds and prints one line. -/
def TypePrints (line : String) : Prop :=
  ∃ after, Act.execute { name := some "type", arguments := [name] } w = .ok 0 after ∧
    after.terminals.out.shown = w.terminals.out.shown ++ Utf8.encode (line ++ "\n")

/-- `type name` says that the name is the program behind a path. The slash that every such
path holds tells it from the words `a shell builtin`. -/
def TypeNames (path : String) : Prop :=
  '/' ∈ path.toList ∧ w.TypePrints name s!"{name} is {path}"

/-- `type name` fails with status 1 and says on the standard error, after the records that
are shown there, that the name was not found. -/
def TypeMisses : Prop :=
  ∃ after shown, Act.execute { name := some "type", arguments := [name] } w = .ok 1 after ∧
    after.terminals.out.shown = w.terminals.out.shown ∧
    after.terminals.err.shown =
      w.terminals.err.shown ++ shown ++ w.errorLine s!"{name}: not found" ∧
    (w.echo = none → shown = [])

variable {w name}

instance (line : String) : Decidable (w.TypePrints name line) :=
  match ran : Act.execute { name := some "type", arguments := [name] } w with
  | .ok status after =>
    decidable_of_iff
      (status = 0 ∧ after.terminals.out.shown = w.terminals.out.shown ++ Utf8.encode (line ++ "\n"))
      (by simp [TypePrints, ran, and_assoc])
  | .error _ _ => isFalse (by simp [TypePrints, ran])

instance (path : String) : Decidable (w.TypeNames name path) :=
  inferInstanceAs (Decidable (_ ∧ _))

theorem typePrints_unique {line line' : String} (h : w.TypePrints name line)
    (h' : w.TypePrints name line') : line = line' := by
  obtain ⟨after, ran, shown⟩ := h
  obtain ⟨after', ran', shown'⟩ := h'
  rw [ran] at ran'
  injection ran' with _ same
  subst same
  have bytes := Utf8.encode_injective (List.append_cancel_left (shown.symm.trans shown'))
  exact (String.append_left_inj _).1 bytes

theorem not_typeMisses_of_typePrints {line : String} (h : w.TypePrints name line) :
    ¬ w.TypeMisses name := by
  rintro ⟨after', _, ran', _⟩
  obtain ⟨after, ran, _⟩ := h
  rw [ran] at ran'
  injection ran' with status _
  exact absurd status (by decide)

theorem typeNames_unique {path path' : String} (h : w.TypeNames name path)
    (h' : w.TypeNames name path') : path = path' := by
  have lines : name ++ " is " ++ path = name ++ " is " ++ path' := typePrints_unique h.2 h'.2
  exact (String.append_right_inj _).1 lines

/-- The words `a shell builtin` are no path. -/
theorem not_typeNames_of_builtin (h : w.TypePrints name s!"{name} is a shell builtin")
    (path : String) : ¬ w.TypeNames name path := by
  rintro ⟨slash, prints⟩
  have lines : name ++ " is a shell builtin" = name ++ " is " ++ path := typePrints_unique h prints
  have words : "a shell builtin" = path := by
    rw [String.append_assoc, String.append_right_inj] at lines
    exact (String.append_right_inj " is ").1 lines
  subst words
  exact absurd slash (by decide)

end World

/-! ## The three courses -/

namespace Act

variable {w : World}

/-- A command named `type` describes its argument and keeps what comes of it as its status. -/
theorem execute_type {name : String} (notFlag : name ≠ "-a") {found : Bool} {after : World}
    (h : Builtin.describeName false name
      (w.note .debug .execution s!"builtin {Builtin.type.name} {Text.quoteList [name]}") =
        .ok found after)
    (idle : after.IsIdle) :
    execute { name := some "type", arguments := [name] } w =
      let status := if found then 0 else 1
      .ok status
        { after.onTerminal .out (·.flush) with session := { after.session with status } } := by
  have isType : Builtin.ofName? "type" = some .type := by decide
  have ran : Workers.usual.builtin .type [name]
      (w.note .debug .execution s!"builtin {Builtin.type.name} {Text.quoteList [name]}") =
        .ok (if found then 0 else 1) (after.onTerminal .out (·.flush)) := by
    change Builtin.runType [name] _ = _
    rw [Builtin.runType_single notFlag]
    simp [h, flush_apply (idle.get .out)]
  rw [execute, executeBy_builtin .usual [name] isType]
  exact completing_apply ran idle

end Act

namespace World

variable {w : World} {name : String}

/-- What is said about a name and what is done under it, case by case. -/
theorem course_cases (idle : w.IsIdle) (notFlag : name ≠ "-a") (arguments : List String) :
    (w.TypePrints name s!"{name} is a shell builtin" ∧ w.RunsBuiltin name arguments) ∨
    (∃ path ∈ w.candidates name, w.TypeNames name path ∧
      w.StartsProgram name arguments (Path.join w.session.cwd path)) ∨
    (w.TypeMisses name ∧ w.StartsNothing name arguments) := by
  let noted := w.note .debug .execution s!"builtin {Builtin.type.name} {Text.quoteList [name]}"
  have idleNoted : noted.IsIdle := by simpa [IsIdle, noted] using idle
  have idleSearch : ∀ {w : World}, w.IsIdle → (w.afterSearch name).IsIdle := by
    intro w idle
    simpa [IsIdle, afterSearch] using idle
  have sameCandidates : (noted.candidates name).head? = (w.candidates name).head? := by
    rw [candidates_note]
  cases isBuiltin : Builtin.ofName? name with
  | some b =>
    left
    have said := Builtin.describeName_builtin (idleNoted.get .out) isBuiltin
    refine ⟨⟨_, Act.execute_type notFlag said idleNoted, ?_⟩, ?_⟩
    · simp [noted, Both.set, Both.get]
    · exact ⟨b, _, Builtin.ofName?_eq_some_iff.1 isBuiltin, w.note_sharesState _ _ _,
        fun workers => Act.executeBy_builtin workers arguments isBuiltin⟩
  | none =>
    right
    cases found : (w.candidates name).head? with
    | some path =>
      left
      have listed : path ∈ w.candidates name := List.mem_of_head? found
      have said := Builtin.describeName_program (idleNoted.get .out) isBuiltin
        (sameCandidates.trans found)
      refine ⟨path, listed, ⟨slash_mem_of_mem_candidates listed, ?_⟩, ?_⟩
      · refine ⟨_, Act.execute_type notFlag said (idleSearch idleNoted), ?_⟩
        simp [noted, afterSearch, Both.set, Both.get]
      · exact startsProgram_of_found arguments isBuiltin found
    | none =>
      right
      have said := Builtin.describeName_missing (idleNoted.get .err) isBuiltin
        (sameCandidates.trans found)
      constructor
      · obtain ⟨first, quiet, grown⟩ := w.note_err .debug .execution
          s!"builtin {Builtin.type.name} {Text.quoteList [name]}"
        obtain ⟨second, quiet', grown'⟩ := noted.afterSearch_err name
        have ran := Act.execute_type notFlag said (idleSearch idleNoted)
        refine ⟨_, first ++ second, ran, ?_, ?_, ?_⟩
        · simp [noted, afterSearch, Both.set, Both.get]
        · have line : noted.errorLine s!"{name}: not found" =
              w.errorLine s!"{name}: not found" := by
            simp [noted, errorLine]
          simp [Both.set, Both.get, grown', noted, grown, ← line]
        · intro none
          simp [quiet none, quiet' (by simpa [noted] using none)]
      · obtain ⟨shown, quiet, grown⟩ := w.afterSearch_err name
        have ran : (do Act.report s!"{name}: command not found"; return notFoundStatus : Act Int)
            (w.afterSearch name) = .ok 127 ((w.afterSearch name).onTerminal .err fun t =>
              (t.print ((w.afterSearch name).errorLine s!"{name}: command not found")).flush) := by
          simp [Act.report_apply ((idleSearch idle).get .err), notFoundStatus]
        have done := fun workers => (Act.executeBy_missing workers arguments isBuiltin found).trans
          (Act.completing_apply ran (idleSearch idle))
        refine ⟨_, shown, done, ?_, ?_, ?_, quiet⟩
        · simp [afterSearch]
        · simp [afterSearch, Both.set, Both.get]
        · have line : (w.afterSearch name).errorLine s!"{name}: command not found" =
              w.errorLine s!"{name}: command not found" := by
            simp [afterSearch, errorLine]
          simp [Both.set, Both.get, grown, ← line]

/-- `type` reports about a name what a command of that name does: that it is a builtin, which
program it starts, or that there is nothing of that name; and it is always exactly one of the
three. A path that is reported is that of an executable file, the very one that is started,
which an absolute directory of the session makes the same file from wherever it is looked
for. -/
theorem type_reports_course (idle : w.IsIdle) (notFlag : name ≠ "-a") (arguments : List String) :
    (w.TypePrints name s!"{name} is a shell builtin" ↔ w.RunsBuiltin name arguments) ∧
    (∀ file, w.StartsProgram name arguments file ↔
      ∃ path, w.TypeNames name path ∧ file = Path.join w.session.cwd path) ∧
    (∀ path, w.TypeNames name path → w.isExecutable (Path.join w.session.cwd path) ∧
      (Path.isAbsolute w.session.cwd → ∀ directory,
        w.files.hasExecutable directory (Path.join w.session.cwd path))) ∧
    (w.TypeMisses name ↔ w.StartsNothing name arguments) ∧
    ((w.TypePrints name s!"{name} is a shell builtin" ∧ (¬ ∃ path, w.TypeNames name path) ∧
        ¬ w.TypeMisses name) ∨
      (¬ w.TypePrints name s!"{name} is a shell builtin" ∧ (∃ path, w.TypeNames name path) ∧
        ¬ w.TypeMisses name) ∨
      (¬ w.TypePrints name s!"{name} is a shell builtin" ∧ (¬ ∃ path, w.TypeNames name path) ∧
        w.TypeMisses name)) := by
  -- each of the three courses comes with what is said, and excludes the two others
  rcases course_cases idle notFlag arguments with
    ⟨said, runs⟩ | ⟨path, listed, said, starts⟩ | ⟨said, nothing⟩
  · have unnamed := not_typeNames_of_builtin said
    have found := not_typeMisses_of_typePrints said
    have unstarted := not_startsProgram_of_runsBuiltin runs
    have done := not_startsNothing_of_runsBuiltin runs
    refine ⟨iff_of_true said runs, fun file => ?_, fun path named => absurd named (unnamed path),
      iff_of_false found done, Or.inl ⟨said, fun ⟨path, named⟩ => unnamed path named, found⟩⟩
    exact iff_of_false (unstarted file) fun ⟨path, named, _⟩ => unnamed path named
  · have notBuiltin : ¬ w.TypePrints name s!"{name} is a shell builtin" :=
      fun printed => not_typeNames_of_builtin printed path said
    have found := not_typeMisses_of_typePrints said.2
    have unrun : ¬ w.RunsBuiltin name arguments :=
      fun runs => not_startsProgram_of_runsBuiltin runs _ starts
    refine ⟨iff_of_false notBuiltin unrun, fun file => ⟨fun other => ?_, ?_⟩, ?_,
      iff_of_false found (not_startsNothing_of_startsProgram starts),
      Or.inr (Or.inl ⟨notBuiltin, ⟨path, said⟩, found⟩)⟩
    · exact ⟨path, said, startsProgram_unique other starts⟩
    · rintro ⟨path', named, rfl⟩
      rw [typeNames_unique named said]
      exact starts
    · intro path' named
      have executable := isExecutable_of_mem_candidates listed
      rw [typeNames_unique named said]
      refine ⟨executable, fun absolute directory => ?_⟩
      rw [hasExecutable_of_isAbsolute w.files (Path.isAbsolute_join absolute path) directory w.here]
      exact executable
  · have notBuiltin : ¬ w.TypePrints name s!"{name} is a shell builtin" :=
      fun printed => not_typeMisses_of_typePrints printed said
    have unnamed : ∀ path, ¬ w.TypeNames name path :=
      fun path named => not_typeMisses_of_typePrints named.2 said
    refine ⟨iff_of_false notBuiltin fun runs => not_startsNothing_of_runsBuiltin runs nothing,
      fun file => iff_of_false (fun starts => not_startsNothing_of_startsProgram starts nothing)
        fun ⟨path, named, _⟩ => unnamed path named,
      fun path named => absurd named (unnamed path), iff_of_true said nothing,
      Or.inr (Or.inr ⟨notBuiltin, fun ⟨path, named⟩ => unnamed path named, said⟩)⟩

/-- A shell in `/home` that looks programs up in `../bin`, which has one program, `tool`. -/
def besideBin : World :=
  let open_ : Access := FileSystem.fullAccess
  { files := ⟨#[.directory open_ 0 "" [("home", 1), ("bin", 2)], .directory open_ 0 "home" [],
      .directory open_ 0 "bin" [("tool", 3)], .file open_ #[] (some (.actions []))]⟩
    here := 1
    session := { cwd := "/home", env := [("PATH", "../bin")] } }

theorem type_reports_relative_path : besideBin.IsIdle ∧ "tool" ≠ "-a" ∧
    besideBin.StartsProgram "tool" ["x"] "/home/../bin/tool" := by
  have idle : besideBin.IsIdle := rfl
  have said : besideBin.TypeNames "tool" "../bin/tool" := by decide +kernel
  have reports := type_reports_course idle (by decide : "tool" ≠ "-a") ["x"]
  exact ⟨idle, by decide, (reports.2.1 _).2 ⟨_, said, by decide⟩⟩

end World

end LineShell
