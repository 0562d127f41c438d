import LineShell.Proofs.Path.Composition

/-!
# The shape of canonical paths

A path is spelled by the slashes in front and the names behind them (`eq_slashes_append`). Of a
canonical path the slashes are those of its root (`slashes_toString`) and the names are its parts
(`components_toString`), so what is left by pushing names (`IsStack`) can be read off the text.

Main statement: `resolve_canonical`, what a path is resolved to has this shape, and its root and its
names are enough to tell it.
-/

namespace LineShell

namespace Path

variable {root : Root} {parts stack : List String} {p q : String}

/-- What stands between the slashes of a path, the slashes in front left out. -/
def components (p : String) : List String :=
  Text.pieces '/' (String.ofList (p.toList.dropWhile (· = '/')))

/-- The slashes in front and the names behind them spell a path. -/
theorem eq_slashes_append (p : String) :
    p = String.ofList (List.replicate (slashes p) '/') ++ Text.glue '/' (components p) := by
  apply String.toList_injective
  rw [components, Text.glue_pieces, String.toList_append, String.toList_ofList,
    String.toList_ofList, ← takeWhile_eq_slashes, List.takeWhile_append_dropWhile]

/-! ## The names that are left -/

theorem IsStack.relative_of_mem (stacked : IsStack root stack) (dots : ".." ∈ stack) :
    root = .relative := by
  induction stack with
  | nil => cases dots
  | cons name above ih =>
    obtain ⟨_, _, back, rest⟩ := stacked
    rcases List.mem_cons.1 dots with rfl | dots
    · exact (back rfl).1
    · exact ih rest dots

theorem IsStack.ne_dot (stacked : IsStack root stack) : ∀ name ∈ stack, name ≠ "." := by
  induction stack with
  | nil => nofun
  | cons name above ih =>
    obtain ⟨_, other, _, rest⟩ := stacked
    exact List.forall_mem_cons.2 ⟨other, ih rest⟩

/-- Above a `..` there is nothing but others. -/
theorem IsStack.pairwise (stacked : IsStack root stack) :
    stack.Pairwise fun name above => name = ".." → above = ".." := by
  induction stack with
  | nil => exact .nil
  | cons name above ih =>
    obtain ⟨_, _, back, rest⟩ := stacked
    exact .cons (fun other listed up => (back up).2 other listed) (ih rest)

theorem pairwise_parts (p : String) :
    (normalize p).parts.Pairwise fun earlier later => later = ".." → earlier = ".." := by
  exact List.pairwise_reverse.1 (by simpa using (isStack_parts p).pairwise)

theorem dots_notMem_parts (absolute : (normalize p).root ≠ .relative) :
    ".." ∉ (normalize p).parts :=
  fun dots => absolute ((isStack_parts p).relative_of_mem (List.mem_reverse.2 dots))

/-! ## Root and names of the written form -/

theorem rootOf_of_isAbsolute (absolute : isAbsolute p) :
    rootOf p = if slashes p = 2 then .doubleSlash else .slash := by
  have some_ : slashes p ≠ 0 := by
    obtain ⟨rest, spelled⟩ := List.head?_eq_some_iff.1 (of_decide_eq_true absolute)
    simp [slashes, spelled]
  rw [rootOf_eq]
  split <;> simp_all

/-- The slashes that a root is written with. -/
theorem slashes_root (root : Root) : slashes root.toString =
    match root with
    | .relative => 0
    | .slash => 1
    | .doubleSlash => 2 := by
  cases root <;> decide

theorem toString_eq_append (nonempty : parts ≠ []) :
    toString ⟨root, parts⟩ = root.toString ++ Text.glue '/' parts :=
  if_neg fun bare => nonempty bare.2

theorem isAbsolute_glue (nonempty : parts ≠ []) (names : ∀ part ∈ parts, IsName part) :
    isAbsolute (Text.glue '/' parts) = false := by
  have relative : isAbsolute (toString ⟨.relative, parts⟩) = decide (Root.relative ≠ .relative) :=
    isAbsolute_toString nonempty names
  rw [toString_eq_append nonempty, Root.toString, String.empty_append] at relative
  simpa using relative

/-- In front of a canonical path are the slashes of its root and no others. -/
theorem slashes_toString (names : ∀ part ∈ parts, IsName part) :
    slashes (toString ⟨root, parts⟩) = slashes root.toString := by
  by_cases empty : parts = []
  · subst empty
    cases root <;> decide
  · rw [toString_eq_append empty, slashes_append,
      slashes_of_relative (isAbsolute_glue empty names), Nat.add_zero]
    split
    case isTrue all => exact all.symm
    case isFalse => rfl

theorem pieces_glue_components (p : String) :
    Text.pieces '/' (Text.glue '/' (components p)) = components p :=
  Text.pieces_glue (Text.pieces_ne_nil _ _) fun _ => Text.not_mem_of_mem_pieces

/-- Behind the root of a canonical path are its parts. -/
theorem components_toString (nonempty : parts ≠ []) (names : ∀ part ∈ parts, IsName part) :
    components (toString ⟨root, parts⟩) = parts := by
  have slashes_eq : String.ofList (List.replicate (slashes root.toString) '/') = root.toString := by
    cases root <;> decide
  have spelled := eq_slashes_append (toString ⟨root, parts⟩)
  rw [slashes_toString names, slashes_eq] at spelled
  have behind : Text.glue '/' parts = Text.glue '/' (components (toString ⟨root, parts⟩)) :=
    (String.append_right_inj _).1 ((toString_eq_append nonempty).symm.trans spelled)
  calc components (toString ⟨root, parts⟩)
      = Text.pieces '/' (Text.glue '/' parts) := by rw [behind, pieces_glue_components]
    _ = parts := Text.pieces_glue nonempty fun part listed => (names part listed).2

/-- After the last name of a canonical path comes no slash. -/
theorem endsInSlash_toString (nonempty : parts ≠ []) (names : ∀ part ∈ parts, IsName part) :
    endsInSlash (toString ⟨root, parts⟩) = false := by
  rw [Bool.eq_false_iff]
  intro slash
  obtain ⟨front, _, cut⟩ := pieces_of_endsInSlash slash
  obtain ⟨others, last, rfl⟩ := (List.eq_nil_or_concat parts).resolve_left nonempty
  rw [pieces_toString nonempty names, List.concat_eq_append, ← List.append_assoc] at cut
  obtain ⟨⟩ := (List.append_inj' cut rfl).2
  exact (names "" (by simp)).1 rfl

/-- Without a name the written form is one of three, and the one thing in it is no name. -/
theorem toString_nil (root : Root) :
    toString ⟨root, []⟩ ∈ ["/", "//", "."] ∧
      components (toString ⟨root, []⟩) = [if root = .relative then "." else ""] := by
  cases root <;> decide

/-! ## Canonical forms -/

/-- A canonical form is a bare root, or there are names in it and they stand behind the root. -/
theorem normalize_cases (p : String) : (∃ root, normalize p = ⟨root, []⟩) ∨
    (normalize p).parts ≠ [] ∧ components (normalize p).toString = (normalize p).parts := by
  by_cases empty : (normalize p).parts = []
  · exact .inl ⟨(normalize p).root, by rw [← empty]⟩
  · exact .inr ⟨empty, components_toString empty (isName_of_mem_parts p)⟩

theorem toString_normalize_ne_empty (p : String) : (normalize p).toString ≠ "" := by
  rcases normalize_cases p with ⟨root, bare⟩ | ⟨nonempty, _⟩
  · rw [bare]
    cases root <;> decide
  · exact toString_ne_empty nonempty (isName_of_mem_parts p)

/-- Only the three paths without a name have something in them that is no name, or a slash at the
end. -/
theorem names_of_notMem (other : (normalize p).toString ∉ ["/", "//", "."]) :
    (∀ name ∈ components (normalize p).toString, name ≠ "" ∧ name ≠ ".") ∧
      endsInSlash (normalize p).toString = false := by
  have names := isName_of_mem_parts p
  rcases normalize_cases p with ⟨root, bare⟩ | ⟨nonempty, behind⟩
  · rw [bare] at other
    exact absurd (toString_nil root).1 other
  · rw [behind]
    refine ⟨fun name listed => ⟨(names name listed).1, ?_⟩, endsInSlash_toString nonempty names⟩
    exact (isStack_parts p).ne_dot name (List.mem_reverse.2 listed)

theorem slashes_normalize (absolute : isAbsolute p) :
    slashes (normalize p).toString = if slashes p = 2 then 2 else 1 := by
  have root : (normalize p).root = if slashes p = 2 then .doubleSlash else .slash :=
    rootOf_of_isAbsolute absolute
  calc slashes (normalize p).toString
      = slashes (normalize p).root.toString := slashes_toString (isName_of_mem_parts p)
    _ = if slashes p = 2 then 2 else 1 := by
        rw [slashes_root, root]
        by_cases two : slashes p = 2
        · simp [two]
        · simp [two]

theorem dots_notMem_components (absolute : isAbsolute p) :
    ".." ∉ components (normalize p).toString := by
  have grounded : (normalize p).root ≠ .relative := by
    intro relative
    have root := (rootOf_of_isAbsolute absolute).symm.trans relative
    split at root <;> cases root
  rcases normalize_cases p with ⟨root, bare⟩ | ⟨_, behind⟩
  · rw [bare, (toString_nil root).2]
    cases root <;> decide
  · rw [behind]
    exact dots_notMem_parts grounded

/-- In a canonical path each `..` stands before all other names. -/
theorem pairwise_components (p : String) : (components (normalize p).toString).Pairwise
    fun earlier later => later = ".." → earlier = ".." := by
  rcases normalize_cases p with ⟨root, bare⟩ | ⟨_, behind⟩
  · rw [bare, (toString_nil root).2]
    exact List.pairwise_singleton _ _
  · rw [behind]
    exact pairwise_parts p

/-- The root and the names tell a canonical path. -/
theorem eq_of_components (normal : IsNormal p) (normal' : IsNormal q) (root : rootOf p = rootOf q)
    (names : components p = components q) : p = q := by
  have front : ∀ {p : String}, IsNormal p → slashes p = slashes (rootOf p).toString := by
    intro p normal
    calc slashes p
        = slashes (normalize p).toString := by rw [normal]
      _ = slashes (rootOf p).toString := slashes_toString (isName_of_mem_parts p)
  rw [eq_slashes_append p, eq_slashes_append q, front normal, front normal', root, names]

end Path

/-- What a path is resolved to is canonical. It is its own canonical form and not empty; apart from
three paths nothing between its slashes is empty or `.`, and there is no slash at the end. From an
absolute path it is absolute, with two slashes in front if there were exactly two and with one
otherwise, and without any `..`; from a relative path each `..` stands before all other names.
Canonical paths are the same if they have the same root and the same names. -/
theorem Session.resolve_canonical (s : Session) (p : String) :
    let joined := Path.join s.cwd p
    let r := s.resolve p
    (Path.normalize r).toString = r ∧ r ≠ "" ∧
    (r ∉ ["/", "//", "."] →
      (∀ name ∈ Path.components r, name ≠ "" ∧ name ≠ ".") ∧ Path.endsInSlash r = false) ∧
    (Path.isAbsolute joined → Path.isAbsolute r ∧
      Path.slashes r = (if Path.slashes joined = 2 then 2 else 1) ∧ ".." ∉ Path.components r) ∧
    (Path.components r).Pairwise (fun earlier later => later = ".." → earlier = "..") ∧
    ∀ q q', Path.IsNormal q → Path.IsNormal q' → Path.rootOf q = Path.rootOf q' →
      Path.components q = Path.components q' → q = q' := by
  intro joined r
  refine ⟨s.resolve_isNormal p, Path.toString_normalize_ne_empty joined, Path.names_of_notMem,
    fun absolute => ?_, Path.pairwise_components joined, fun q q' => Path.eq_of_components⟩
  exact ⟨Path.isAbsolute_normalize absolute, Path.slashes_normalize absolute,
    Path.dots_notMem_components absolute⟩

/-- From `//srv/data` the path `.././../../a/` leads to `//a`, which keeps its two slashes. -/
theorem Session.resolve_canonical_climbing :
    let s : Session := { cwd := "//srv/data", env := [] }
    s.resolve ".././../../a/" = "//a" ∧ Path.isAbsolute (Path.join s.cwd ".././../../a/") ∧
      "//a" ∉ ["/", "//", "."] ∧ Path.components "//a" = ["a"] ∧ Path.slashes "//a" = 2 ∧
      Path.endsInSlash "//a" = false := by
  intro s
  have resolved : s.resolve ".././../../a/" = "//a" := by decide
  have absolute : Path.isAbsolute (Path.join s.cwd ".././../../a/") := by decide
  obtain ⟨_, _, shape, fromRoot, _⟩ := s.resolve_canonical ".././../../a/"
  rw [resolved] at shape fromRoot
  exact ⟨resolved, absolute, by decide, by decide, (fromRoot absolute).2.1.trans (by decide),
    (shape (by decide)).2⟩

end LineShell
