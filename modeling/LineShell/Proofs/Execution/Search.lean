import LineShell.Proofs.Execution.TypeReport
import LineShell.Proofs.Path.Below

/-!
# The search along `PATH`

A name without a slash is looked for in every directory that `PATH` lists, one after the other
(`World.programsIn`). What is found in a list of directories is found in its parts, and the entries
of a text are those of its parts on both sides of a colon, so the search goes along with `PATH`
piece by piece; an empty entry holds nothing.

Main statement: `candidates_searched`.
-/

namespace LineShell

/-- What the variable `PATH` holds, nothing if it is not set. -/
def Session.searchPath (s : Session) : String :=
  (s.env.lookup "PATH").getD ""

namespace World

variable {w : World} {name : String}

/-- A path, seen from the directory of the session, leads to a regular file that may be launched. -/
def HasProgram (w : World) (path : String) : Prop :=
  ∃ access data program,
    w.files.lookup w.here path = .ok (.file access data program) ∧ access.execute = true

theorem isExecutable_iff {path : String} : w.isExecutable path = true ↔ w.HasProgram path := by
  unfold isExecutable FileSystem.hasExecutable HasProgram
  constructor
  · intro executable
    split at executable
    case h_1 access data program looked => exact ⟨access, data, program, looked, executable⟩
    case h_2 => cases executable
  · rintro ⟨access, data, program, looked, executable⟩
    rw [looked]
    exact executable

instance (path : String) : Decidable (w.HasProgram path) :=
  decidable_of_iff _ isExecutable_iff

@[simp] theorem decide_hasProgram (path : String) :
    decide (w.HasProgram path) = w.isExecutable path :=
  Bool.eq_iff_iff.2 (decide_eq_true_iff.trans isExecutable_iff.symm)

/-- The programs of a name in directories, in the order of the directories. -/
def programsIn (w : World) (name : String) (directories : List String) : List String :=
  (directories.filter fun dir =>
    dir ≠ "" ∧ w.HasProgram (Path.join (Path.join w.session.cwd dir) name)).map (Path.join · name)

/-- The world in which the variable `PATH` is set. -/
def searching (w : World) (path : String) : World :=
  { w with session := { w.session with
      env := ("PATH", path) :: w.session.env.filter (·.1 ≠ "PATH") } }

@[simp] theorem searchPath_searching (w : World) (path : String) :
    (w.searching path).session.searchPath = path := by
  simp [searching, Session.searchPath]

@[simp] theorem programsIn_searching (w : World) (path name : String) :
    (w.searching path).programsIn name = w.programsIn name :=
  rfl

/-! ## One directory after the other -/

theorem programsIn_append (directories others : List String) :
    w.programsIn name (directories ++ others) =
      w.programsIn name directories ++ w.programsIn name others := by
  simp only [programsIn, List.filter_append, List.map_append]

theorem programsIn_empty (w : World) (name : String) : w.programsIn name [""] = [] := by
  simp [programsIn]

theorem candidates_empty (w : World) : w.candidates "" = [] := by
  simp [candidates]

theorem candidates_of_slash (slash : '/' ∈ name.toList) : w.candidates name =
    if w.HasProgram (Path.join w.session.cwd name) then [name] else [] := by
  have nonempty : name ≠ "" := by
    rintro rfl
    cases slash
  simp [candidates, nonempty, slash, isExecutable_iff]

theorem candidates_of_plain (nonempty : name ≠ "") (plain : '/' ∉ name.toList) :
    w.candidates name = w.programsIn name (Text.pieces ':' w.session.searchPath) := by
  have elsewhere : ¬ name.toList.contains '/' := by simpa using plain
  unfold candidates programsIn
  rw [if_neg nonempty, if_neg elsewhere, searchDirectories, List.filter_filter]
  refine congrArg (List.map _) (List.filter_congr fun dir _ => ?_)
  rw [Bool.decide_and, decide_hasProgram, Bool.and_comm]

/-! ## Along the variable -/

theorem candidates_searching (plain : '/' ∉ name.toList) (path : String) :
    (w.searching path).candidates name =
      if name = "" then [] else w.programsIn name (Text.pieces ':' path) := by
  split
  case isTrue empty => rw [empty, candidates_empty]
  case isFalse nonempty =>
    rw [candidates_of_plain nonempty plain, searchPath_searching, programsIn_searching]

theorem candidates_searching_append (plain : '/' ∉ name.toList) (P Q : String) :
    (w.searching (P ++ ":" ++ Q)).candidates name =
      (w.searching P).candidates name ++ (w.searching Q).candidates name := by
  have cut : Text.pieces ':' (P ++ ":" ++ Q) = Text.pieces ':' P ++ Text.pieces ':' Q :=
    Text.pieces_append ':' P Q
  simp only [candidates_searching plain, cut, programsIn_append]
  split
  · rfl
  · rfl

/-- An empty `PATH` lists no directory. -/
theorem candidates_searching_empty (plain : '/' ∉ name.toList) :
    (w.searching "").candidates name = [] := by
  rw [candidates_searching plain, Text.pieces_empty, programsIn_empty, ite_self]

/-- Colons in front, at the end and in a row list no directory. -/
theorem candidates_searching_colons (plain : '/' ∉ name.toList) (P Q : String) :
    (w.searching (":" ++ P)).candidates name = (w.searching P).candidates name ∧
    (w.searching (P ++ ":")).candidates name = (w.searching P).candidates name ∧
    (w.searching (P ++ "::" ++ Q)).candidates name =
      (w.searching (P ++ ":" ++ Q)).candidates name := by
  have nothing : (w.searching "").candidates name = [] := candidates_searching_empty plain
  have front := candidates_searching_append (w := w) plain "" P
  have back := candidates_searching_append (w := w) plain P ""
  have row : P ++ "::" ++ Q = P ++ ":" ++ ("" ++ ":" ++ Q) := by
    have two : "::" = ":" ++ ":" := by decide
    simp only [two, String.append_assoc, String.empty_append]
  rw [nothing, String.empty_append, List.nil_append] at front
  rw [nothing, String.append_empty, List.append_nil] at back
  refine ⟨front, back, ?_⟩
  rw [row, candidates_searching_append plain, candidates_searching_append plain,
    candidates_searching_append plain, nothing, List.nil_append]

/-- The search for a program finds nothing under the empty name, the path itself under a path that
is one of a program, and under any other name one path for each entry of `PATH` that is not empty
and in whose directory there is a program of the name, in the order of the entries. What is found
is seen from the directory of the session as it was tested; what is found first is what a command
starts. Without a slash in the name the search goes along with `PATH` piece by piece. -/
theorem candidates_searched (w : World) (name : String) :
    let cwd := w.session.cwd
    (name = "" → w.candidates name = []) ∧
    ('/' ∈ name.toList →
      w.candidates name = if w.HasProgram (Path.join cwd name) then [name] else []) ∧
    (name ≠ "" → '/' ∉ name.toList → ∃ entries : List String,
      entries ≠ [] ∧ (∀ dir ∈ entries, ':' ∉ dir.toList) ∧
      Text.glue ':' entries = w.session.searchPath ∧
      w.candidates name = (entries.filter fun dir =>
        dir ≠ "" ∧ w.HasProgram (Path.join (Path.join cwd dir) name)).map (Path.join · name)) ∧
    (∀ path ∈ w.candidates name, w.HasProgram (Path.join cwd path)) ∧
    (∃ after, Act.findProgram name w = .ok (w.candidates name).head? after ∧
      after.SharesState w) ∧
    (∀ path, Builtin.ofName? name = none → (w.candidates name).head? = some path →
      ∀ arguments, w.StartsProgram name arguments (Path.join cwd path)) ∧
    ('/' ∉ name.toList → ∀ P Q,
      (w.searching (P ++ ":" ++ Q)).candidates name =
        (w.searching P).candidates name ++ (w.searching Q).candidates name ∧
      (w.searching (":" ++ P)).candidates name = (w.searching P).candidates name ∧
      (w.searching (P ++ ":")).candidates name = (w.searching P).candidates name ∧
      (w.searching (P ++ "::" ++ Q)).candidates name =
        (w.searching (P ++ ":" ++ Q)).candidates name) := by
  intro cwd
  refine ⟨?_, candidates_of_slash, fun nonempty plain => ?_, fun path listed => ?_, ?_,
    fun path isOther found arguments => ?_, fun plain P Q => ?_⟩
  · rintro rfl
    exact candidates_empty w
  · exact ⟨_, Text.pieces_ne_nil ':' _, fun _ => Text.not_mem_of_mem_pieces, Text.glue_pieces ':' _,
      candidates_of_plain nonempty plain⟩
  · exact isExecutable_iff.1 (isExecutable_of_mem_candidates listed)
  · exact ⟨_, Act.findProgram_apply name w, w.note_sharesState _ _ _⟩
  · exact startsProgram_of_found arguments isOther found
  · exact ⟨candidates_searching_append plain P Q, candidates_searching_colons plain P Q⟩

/-- Two entries for one directory, with an empty one between them, find its program twice. -/
theorem candidates_searched_twice : '/' ∉ "tool".toList ∧
    (besideBin.searching ("../bin" ++ "::" ++ "/bin")).candidates "tool" =
      ["../bin/tool", "/bin/tool"] ∧
    besideBin.HasProgram "/home/../bin/tool" ∧
    besideBin.StartsProgram "tool" ["x"] "/home/../bin/tool" := by
  obtain ⟨_, _, _, tested, _, starts, along⟩ := candidates_searched besideBin "tool"
  obtain ⟨parts, _, _, row⟩ := along (by decide) "../bin" "/bin"
  have first : (besideBin.searching "../bin").candidates "tool" = ["../bin/tool"] := by
    decide +kernel
  have second : (besideBin.searching "/bin").candidates "tool" = ["/bin/tool"] := by
    decide +kernel
  have found : besideBin.candidates "tool" = ["../bin/tool"] := by decide +kernel
  refine ⟨by decide, ?_, tested "../bin/tool" (by simp [found]), ?_⟩
  · rw [row, parts, first, second]
    rfl
  · exact starts "../bin/tool" (by decide) (by rw [found]; rfl) ["x"]

end World

end LineShell
