import LineShell.Proofs.Path.Canonical
import LineShell.Proofs.Path.Join
import LineShell.World

/-!
# Normal paths

Bringing a path into its canonical form twice is the same as doing it once: the names that
`Path.push` leaves are such that pushing them one after the other only stacks them
(`IsStack`), and the written form gives back the root and the names.

Main statements: `normalize_toString`, what a path is resolved to is normal
(`resolve_isNormal`), and seen from an absolute directory it is absolute
(`isAbsolute_resolve`).
-/

namespace LineShell

namespace Path

/-- A path that is written as its canonical form. -/
def IsNormal (p : String) : Prop :=
  (normalize p).toString = p

/-! ## Names that are left -/

/-- Names as they are left by pushing, nearest first: none of them is `.`, and `..` stands
only at the start of a relative path. -/
def IsStack (root : Root) : List String → Prop
  | [] => True
  | name :: above =>
    IsName name ∧ name ≠ "." ∧
      (name = ".." → root = .relative ∧ ∀ other ∈ above, other = "..") ∧ IsStack root above

variable {root : Root} {stack : List String} {name : String}

theorem IsStack.isName (stacked : IsStack root stack) : ∀ part ∈ stack, IsName part := by
  induction stack with
  | nil => nofun
  | cons name above ih =>
    obtain ⟨named, _, _, rest⟩ := stacked
    intro part listed
    cases listed with
    | head => exact named
    | tail _ listed => exact ih rest part listed

theorem IsStack.push (stacked : IsStack root stack) (free : '/' ∉ name.toList) :
    IsStack root (push root stack name) := by
  unfold Path.push
  by_cases skipped : name = "" ∨ name = "."
  · rwa [if_pos skipped]
  rw [if_neg skipped]
  rw [not_or] at skipped
  by_cases up : name = ".."
  · subst up
    rw [if_pos rfl]
    match stack with
    | [] =>
      cases root with
      | relative => exact ⟨isName_dots, by decide, fun _ => ⟨rfl, nofun⟩, trivial⟩
      | slash => trivial
      | doubleSlash => trivial
    | nearest :: others =>
      dsimp only
      by_cases kept : nearest = ".."
      · -- after one `..` there are only others
        rw [if_pos kept]
        obtain ⟨relative, above⟩ := stacked.2.2.1 kept
        refine ⟨isName_dots, by decide, fun _ => ⟨relative, ?_⟩, stacked⟩
        simpa [kept] using above
      · rw [if_neg kept]
        exact stacked.2.2.2
  · rw [if_neg up]
    exact ⟨⟨skipped.1, free⟩, skipped.2, fun back => absurd back up, stacked⟩

theorem IsStack.foldl_push {pieces : List String} (stacked : IsStack root stack)
    (free : ∀ piece ∈ pieces, '/' ∉ piece.toList) :
    IsStack root (pieces.foldl (Path.push root) stack) := by
  induction pieces generalizing stack with
  | nil => exact stacked
  | cons piece pieces ih =>
    have pushed : IsStack root (Path.push root stack piece) := stacked.push (free piece (.head _))
    exact ih pushed fun other listed => free other (.tail _ listed)

/-- A name that stands on a stack is put there by pushing it. -/
theorem push_of_isStack (stacked : IsStack root (name :: stack)) :
    push root stack name = name :: stack := by
  obtain ⟨⟨nonempty, _⟩, other, back, _⟩ := stacked
  unfold push
  rw [if_neg (by simp [nonempty, other])]
  by_cases up : name = ".."
  · obtain ⟨relative, above⟩ := back up
    rw [if_pos up]
    cases stack with
    | nil => simp [relative, up]
    | cons nearest others => simp [above nearest (.head _), up]
  · rw [if_neg up]

theorem foldl_push_reverse (stacked : IsStack root stack) :
    stack.reverse.foldl (push root) [] = stack := by
  induction stack with
  | nil => rfl
  | cons name above ih =>
    obtain ⟨_, _, _, rest⟩ := id stacked
    rw [List.reverse_cons, List.foldl_append, ih rest]
    exact push_of_isStack stacked

theorem isStack_parts (p : String) : IsStack (normalize p).root (normalize p).parts.reverse := by
  have stacked : IsStack (rootOf p) ((Text.pieces '/' p).foldl (push (rootOf p)) []) :=
    IsStack.foldl_push trivial fun _ => Text.not_mem_of_mem_pieces
  simpa [normalize] using stacked

/-! ## Reading the written form -/

/-- The slashes in front of the written names are those of the root. -/
theorem rootOf_append {text : String} (free : isAbsolute text = false) :
    rootOf (root.toString ++ text) = root := by
  have first : text.toList.head? ≠ some '/' := by simpa [isAbsolute] using free
  cases spelled : text.toList with
  | nil => cases root <;> simp [rootOf, Root.toString, spelled]
  | cons c rest =>
    have other : c ≠ '/' := by simpa [spelled] using first
    cases root with
    | relative => simp [rootOf, Root.toString, spelled, other]
    | slash => simp [rootOf, Root.toString, spelled, other]
    | doubleSlash => simp [rootOf, Root.toString, spelled, other]

/-- What stands in front of the first name is pushed to no effect. -/
theorem foldl_push_lead (root' : Root) (parts : List String) :
    (lead root ++ parts).foldl (push root') [] = parts.foldl (push root') [] := by
  cases root <;> simp [lead, push]

/-- The canonical form of a path that is written canonically. -/
theorem normalize_toString_of_isStack {parts : List String}
    (stacked : IsStack root parts.reverse) : normalize (toString ⟨root, parts⟩) = ⟨root, parts⟩ := by
  by_cases empty : parts = []
  · subst empty
    cases root <;> decide
  · have names : ∀ part ∈ parts, IsName part := by simpa using stacked.isName
    have relative : isAbsolute (toString ⟨.relative, parts⟩) = decide (Root.relative ≠ .relative) :=
      isAbsolute_toString empty names
    have root_eq : rootOf (toString ⟨root, parts⟩) = root := by
      have written : toString ⟨root, parts⟩ = root.toString ++ toString ⟨.relative, parts⟩ := by
        simp [toString, empty, Root.toString]
      rw [written]
      exact rootOf_append (by simpa using relative)
    have again : parts.foldl (push root) [] = parts.reverse := by
      simpa using foldl_push_reverse stacked
    simp only [normalize, root_eq, pieces_toString empty names, foldl_push_lead, again,
      List.reverse_reverse]

/-- A canonical form is its own canonical form. -/
theorem normalize_toString (p : String) : normalize (normalize p).toString = normalize p :=
  normalize_toString_of_isStack (isStack_parts p)

theorem isAbsolute_normalize {p : String} (absolute : isAbsolute p) :
    isAbsolute (normalize p).toString := by
  have grounded : (normalize p).root ≠ .relative := by
    simp only [isAbsolute, decide_eq_true_eq] at absolute
    obtain ⟨rest, spelled⟩ := List.head?_eq_some_iff.1 absolute
    -- a text that starts with a slash starts with two, with more or with only one
    simp only [normalize, rootOf, spelled]
    split <;> simp_all
  cases root : (normalize p).root with
  | relative => exact absurd root grounded
  | slash => simp [isAbsolute, toString, Root.toString, root]
  | doubleSlash => simp [isAbsolute, toString, Root.toString, root]

end Path

/-! ## Resolving -/

namespace Session

variable {s : Session}

theorem resolve_isNormal (s : Session) (path : String) : Path.IsNormal (s.resolve path) := by
  unfold Path.IsNormal resolve Path.resolve
  rw [Path.normalize_toString]

theorem isAbsolute_resolve (absolute : Path.isAbsolute s.cwd) (path : String) :
    Path.isAbsolute (s.resolve path) :=
  Path.isAbsolute_normalize (Path.isAbsolute_join absolute path)

end Session

end LineShell
