import LineShell.Proofs.Path.Composition
import LineShell.Proofs.Session.Going

/-!
# Going in stages

A path may be resolved in stages, each from where the one before has led, and so may a directory be
gone to: `cd a` and `cd b` end where `cd a/b` does (`goes_in_stages`).

The home directory is such a stage for the paths below it (`goes_home_first`), unless it is a root
without a name: the slash between it and what is below it changes the root then, since exactly two
slashes in front mean another one (`resolve_below_home_iff`).
-/

namespace LineShell

/-! ## Paths that start at the home directory -/

/-- The first name of a path stands for the home directory. -/
def Path.StartsAtHome (p : String) : Prop :=
  p = "~" ∨ ∃ rest, p = "~/" ++ rest

namespace Builtin

variable {s : Session} {a b p : String}

theorem expandHome_of_not_startsAtHome (plain : ¬ Path.StartsAtHome p) (s : Session) :
    expandHome s p = some p := by
  unfold expandHome
  split
  case h_1 spelled => exact absurd (.inl (String.toList_injective spelled)) plain
  case h_2 rest spelled =>
    refine absurd (.inr ⟨String.ofList rest, String.toList_injective ?_⟩) plain
    simp [spelled]
  case h_3 => rfl

theorem expandHome_below (s : Session) (p : String) :
    expandHome s ("~/" ++ p) = s.home.map (· ++ "/" ++ p) := by
  have spelled : ("~/" ++ p).toList = '~' :: '/' :: p.toList := by simp
  have below : String.ofList ('/' :: p.toList) = "/" ++ p := by
    apply String.toList_injective
    simp
  simp only [expandHome, spelled, below, String.append_assoc]

theorem expandHome_dot (s : Session) (p : String) :
    expandHome s ("./" ++ p) = some ("./" ++ p) := by
  simp [expandHome]

/-- What comes behind a path does not make it start at the home directory. -/
theorem startsAtHome_of_append {more : String} (nonempty : a ≠ "")
    (home : Path.StartsAtHome (a ++ more)) : Path.StartsAtHome a := by
  have chars : a.toList ≠ [] := fun empty => nonempty (String.toList_eq_nil_iff.1 empty)
  obtain ⟨c, cs, spelled⟩ := List.exists_cons_of_ne_nil chars
  rcases home with whole | ⟨rest, whole⟩
  · have same : c :: (cs ++ more.toList) = ['~'] := by
      simpa [spelled] using congrArg String.toList whole
    obtain ⟨rfl, none⟩ := List.cons.inj same
    obtain ⟨rfl, _⟩ := List.append_eq_nil_iff.1 none
    exact .inl (String.toList_injective spelled)
  · have same : c :: (cs ++ more.toList) = '~' :: '/' :: rest.toList := by
      simpa [spelled] using congrArg String.toList whole
    obtain ⟨rfl, behind⟩ := List.cons.inj same
    cases cs with
    | nil => exact .inl (String.toList_injective spelled)
    | cons d ds =>
      obtain rfl : d = '/' := (List.cons.inj behind).1
      exact .inr ⟨String.ofList ds, String.toList_injective (by simp [spelled])⟩

/-- Joining two paths does not make one that starts at the home directory. -/
theorem not_startsAtHome_join (first : ¬ Path.StartsAtHome a) (second : ¬ Path.StartsAtHome b) :
    ¬ Path.StartsAtHome (Path.join a b) := by
  cases kind : Path.isAbsolute b with
  | true => rwa [Path.join_of_isAbsolute kind]
  | false =>
    by_cases empty : a = ""
    · subst empty
      have alone : Path.join "" b = b := by simp [Path.join, kind]
      rwa [alone]
    · rw [Path.join_of_relative kind, String.append_assoc]
      exact fun home => first (startsAtHome_of_append empty home)

end Builtin

/-! ## One stage after the other -/

namespace World

open Builtin

variable {w v u : World} {a b home p : String}

/-- Resolving a path from where another one leads is resolving both at once. -/
theorem resolve_goneTo (s : Session) (a b : String) :
    ({ s with cwd := s.resolve a } : Session).resolve b = s.resolve (Path.join a b) :=
  congrArg Path.toString (Path.resolve_resolve s.cwd a b)

theorem destination?_eq_some_iff {s : Session} {t directory : String} :
    destination? s [t] = some directory ↔
      ∃ path, expandHome s t = some path ∧ s.resolve path = directory := by
  simp [destination?, target?]

/-- To go to a directory and then to another one leads to what both of them ask for. -/
theorem run_run {s t : String} (first : run .cd [s] w = .ok 0 v)
    (second : run .cd [t] v = .ok 0 u) : ∃ path path',
      expandHome w.session s = some path ∧ expandHome w.session t = some path' ∧
      directoryError? w (w.session.resolve (Path.join path path')) = none ∧
      u.session = { w.session with cwd := w.session.resolve (Path.join path path') } := by
  obtain ⟨_, asked, _, rfl⟩ := runCd_eq_ok_zero_iff.1 first
  obtain ⟨_, asked', fine, rfl⟩ := runCd_eq_ok_zero_iff.1 second
  obtain ⟨path, expanded, rfl⟩ := destination?_eq_some_iff.1 asked
  obtain ⟨path', expanded', rfl⟩ := destination?_eq_some_iff.1 asked'
  -- the second path is expanded as before and resolved from where the first one has led
  have resolved : (w.goneTo (w.session.resolve path)).session.resolve path' =
      w.session.resolve (Path.join path path') := resolve_goneTo w.session path path'
  rw [directoryError?_goneTo, resolved] at fine
  refine ⟨path, path', expanded, expanded', fine, ?_⟩
  rw [← resolved]
  rfl

/-- `cd` to a path that was expanded, where that is a directory to go to. -/
theorem run_of_expandHome {t path : String} (expanded : expandHome w.session t = some path)
    (fine : directoryError? w (w.session.resolve path) = none) :
    run .cd [t] w = .ok 0 (w.goneTo (w.session.resolve path)) :=
  runCd_eq_ok_zero_iff.2 ⟨_, destination?_eq_some_iff.2 ⟨path, expanded, rfl⟩, fine, rfl⟩

/-- Resolving goes in stages, and so does `cd`: where it succeeds for one path and then for another
one, it succeeds for the joined path and leaves the same session, unless one of the two starts at
the home directory. -/
theorem goes_in_stages :
    (∀ (s : Session) (a b : String),
      ({ s with cwd := s.resolve a } : Session).resolve b = s.resolve (Path.join a b)) ∧
    ∀ {w v u : World} {a b : String}, ¬ Path.StartsAtHome a → ¬ Path.StartsAtHome b →
      run .cd [a] w = .ok 0 v → run .cd [b] v = .ok 0 u →
      ∃ u', run .cd [Path.join a b] w = .ok 0 u' ∧ u'.session = u.session := by
  refine ⟨resolve_goneTo, fun {w v u a b} plain plain' first second => ?_⟩
  obtain ⟨path, path', expanded, expanded', fine, session⟩ := run_run first second
  rw [expandHome_of_not_startsAtHome plain] at expanded
  rw [expandHome_of_not_startsAtHome plain'] at expanded'
  cases expanded
  cases expanded'
  have joined : expandHome w.session (Path.join a b) = some (Path.join a b) :=
    expandHome_of_not_startsAtHome (not_startsAtHome_join plain plain') _
  exact ⟨_, run_of_expandHome joined fine, session.symm⟩

/-- From `/w/a/b`, `cd ..` and `cd b` lead to where `cd ../b` does. -/
theorem goes_in_stages_beside : ¬ Path.StartsAtHome ".." ∧ ¬ Path.StartsAtHome "b" ∧
    ∃ v u u', run .cd [".."] beside = .ok 0 v ∧ run .cd ["b"] v = .ok 0 u ∧
      run .cd ["../b"] beside = .ok 0 u' ∧ u'.session = u.session := by
  have plain : ∀ p : String, p.toList.head? ≠ some '~' → ¬ Path.StartsAtHome p := by
    rintro p other (rfl | ⟨rest, rfl⟩)
    · exact other rfl
    · exact other (by simp)
  have first : run .cd [".."] beside = .ok 0 (beside.goneTo "/w/a") := by decide +kernel
  have second : run .cd ["b"] (beside.goneTo "/w/a") =
      .ok 0 ((beside.goneTo "/w/a").goneTo "/w/a/b") := by decide +kernel
  have up := plain ".." (by decide)
  have down := plain "b" (by decide)
  obtain ⟨u', ran, same⟩ := goes_in_stages.2 up down first second
  exact ⟨up, down, _, _, u', first, second, ran, same⟩

/-! ## The home directory as a stage -/

/-- The directory of `~/p` is the one of `p` below the home directory, unless this is written with
nothing but one slash or two. Otherwise `cd ~/p` goes where `cd ~` and `cd ./p` go. -/
theorem goes_home_first (known : w.session.home = some home) (nonempty : home ≠ "")
    (relative : Path.isAbsolute p = false) :
    (destination? w.session ["~/" ++ p] =
        some (Path.normalize (Path.join (Path.join w.session.cwd home) p)).toString ↔
      home ≠ "/" ∧ home ≠ "//") ∧
    (home ≠ "/" → home ≠ "//" → ∀ v u, run .cd ["~"] w = .ok 0 v →
      run .cd ["./" ++ p] v = .ok 0 u →
      ∃ u', run .cd ["~/" ++ p] w = .ok 0 u' ∧ u'.session = u.session) := by
  have expanded : expandHome w.session ("~/" ++ p) = some (home ++ "/" ++ p) := by
    rw [expandHome_below, known, Option.map_some]
  have below : (w.session.resolve (home ++ "/" ++ p) =
      (Path.normalize (Path.join (Path.join w.session.cwd home) p)).toString) ↔
      home ≠ "/" ∧ home ≠ "//" :=
    Path.toString_normalize_inj.trans (Path.normalize_join_below_iff nonempty relative _)
  refine ⟨?_, fun one two v u first second => ?_⟩
  · rw [destination?_eq_some_iff, expanded]
    simpa using below
  obtain ⟨path, path', expanded', expanded'', fine, session⟩ := run_run first second
  have alone : expandHome w.session "~" = some home := known
  rw [alone] at expanded'
  rw [expandHome_dot] at expanded''
  cases expanded'
  cases expanded''
  have same : w.session.resolve (Path.join home ("./" ++ p)) =
      w.session.resolve (home ++ "/" ++ p) := by
    rw [below.2 ⟨one, two⟩, ← Path.normalize_join_dot_below relative, Path.join_assoc]
    rfl
  rw [same] at fine session
  exact ⟨_, run_of_expandHome expanded fine, session.symm⟩

/-- A shell in `/w/a` whose home directory is given with a slash at its end. -/
def atHome : World :=
  { beside with session := { cwd := "/w/a", env := [("HOME", "/w/")] } }

theorem goes_home_first_atHome : atHome.session.home = some "/w/" ∧ "/w/" ≠ "" ∧
    Path.isAbsolute "a/b" = false ∧ ∃ v u u', run .cd ["~"] atHome = .ok 0 v ∧
      run .cd ["./a/b"] v = .ok 0 u ∧ run .cd ["~/a/b"] atHome = .ok 0 u' ∧
      u'.session = u.session := by
  have known : atHome.session.home = some "/w/" := rfl
  have first : run .cd ["~"] atHome = .ok 0 (atHome.goneTo "/w") := by decide +kernel
  have second : run .cd ["./a/b"] (atHome.goneTo "/w") =
      .ok 0 ((atHome.goneTo "/w").goneTo "/w/a/b") := by decide +kernel
  have stages := goes_home_first known (by decide) (by decide : Path.isAbsolute "a/b" = false)
  obtain ⟨u', ran, same⟩ := stages.2 (by decide) (by decide) _ _ first second
  exact ⟨known, by decide, by decide, _, _, u', first, second, ran, same⟩

/-- A shell whose home directory is the root. -/
def homeIsRoot : World :=
  { beside with session := { cwd := "/w", env := [("HOME", "/")] } }

/-- Where the home directory is the root, the paths below it have another root. -/
theorem home_below_root : ∃ v u u', run .cd ["~"] homeIsRoot = .ok 0 v ∧
    run .cd ["./w"] v = .ok 0 u ∧ u.session.cwd = "/w" ∧
    run .cd ["~/w"] homeIsRoot = .ok 0 u' ∧ u'.session.cwd = "//w" := by
  have first : run .cd ["~"] homeIsRoot = .ok 0 (homeIsRoot.goneTo "/") := by decide +kernel
  have second : run .cd ["./w"] (homeIsRoot.goneTo "/") =
      .ok 0 ((homeIsRoot.goneTo "/").goneTo "/w") := by decide +kernel
  have whole : run .cd ["~/w"] homeIsRoot = .ok 0 (homeIsRoot.goneTo "//w") := by decide +kernel
  exact ⟨_, _, _, first, second, rfl, whole, rfl⟩

end World

end LineShell
