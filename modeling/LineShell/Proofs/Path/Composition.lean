import LineShell.Proofs.Path.Below
import LineShell.Proofs.Path.Normal

/-!
# Canonical paths in stages

The canonical form of a joined path depends on no more of its first part than the canonical form of
that part (`normalize_join_of_relative`): the names of the second part are pushed onto the names
that the first part has left, below the same root. So a path may be brought into its canonical form
in stages, and the stages may be joined before (`resolve_resolve`).

Slashes at the end of a path ask for no further name. Yet one more of them changes the path where
there is nothing but slashes, since exactly two in front are a root of their own
(`normalize_append_slash`).
-/

namespace LineShell.Path

variable {root : Root} {above : List String} {start p q : String}

@[simp] theorem push_empty (root : Root) (above : List String) : push root above "" = above := by
  simp [push]

@[simp] theorem push_dot (root : Root) (above : List String) : push root above "." = above := by
  simp [push]

/-! ## The slashes in front -/

/-- How many slashes stand in front of a path. -/
def slashes (p : String) : Nat :=
  (p.toList.takeWhile (· = '/')).length

theorem takeWhile_slash {cs : List Char} (other : ∀ rest, cs ≠ '/' :: rest) :
    cs.takeWhile (· = '/') = [] := by
  cases cs with
  | nil => rfl
  | cons c rest =>
    have apart : c ≠ '/' := by
      rintro rfl
      exact other rest rfl
    simp [apart]

theorem rootOf_eq (p : String) : rootOf p =
    match slashes p with
    | 0 => .relative
    | 2 => .doubleSlash
    | _ => .slash := by
  unfold rootOf slashes
  split
  case h_1 rest spelled => simp [spelled]
  case h_2 rest other spelled =>
    have stops : rest.takeWhile (· = '/') = [] :=
      takeWhile_slash fun more => by simpa using other more
    simp [spelled, stops]
  case h_3 rest _ other spelled =>
    have stops : rest.takeWhile (· = '/') = [] :=
      takeWhile_slash fun more => by simpa using other more
    simp [spelled, stops]
  case h_4 other =>
    rw [takeWhile_slash other]
    rfl

theorem slashes_of_relative (relative : isAbsolute p = false) : slashes p = 0 := by
  have other : ∀ rest, p.toList ≠ '/' :: rest := by
    intro rest spelled
    simp [isAbsolute, spelled] at relative
  simp [slashes, takeWhile_slash other]

/-- The slashes in front of the second text are in front of both only if there is nothing but
slashes before them. -/
theorem slashes_append (p q : String) : slashes (p ++ q) =
    if slashes p = p.toList.length then p.toList.length + slashes q else slashes p := by
  unfold slashes
  rw [String.toList_append, List.takeWhile_append]
  split
  · rw [List.length_append]
  · rfl

theorem takeWhile_eq_slashes (p : String) :
    p.toList.takeWhile (· = '/') = List.replicate (slashes p) '/' := by
  refine List.eq_replicate_iff.2 ⟨rfl, fun c taken => ?_⟩
  exact of_decide_eq_true (List.all_eq_true.1 List.all_takeWhile c taken)

theorem eq_of_slashes (all : slashes p = p.toList.length) :
    p = String.ofList (List.replicate (slashes p) '/') := by
  have whole : p.toList.takeWhile (· = '/') = p.toList :=
    (List.takeWhile_prefix (· = '/')).eq_of_length all
  apply String.toList_injective
  rw [String.toList_ofList, ← takeWhile_eq_slashes, whole]

theorem rootOf_append_of_relative (relative : isAbsolute q = false) (p : String) :
    rootOf (p ++ q) = rootOf p := by
  have same : slashes (p ++ q) = slashes p := by
    rw [slashes_append, slashes_of_relative relative, Nat.add_zero]
    split
    case isTrue all => exact all.symm
    case isFalse => rfl
  rw [rootOf_eq, rootOf_eq, same]

/-- Three slashes are as good as any more of them, and behind a name there is no root. -/
theorem rootOf_append_of_ne (empty : p ≠ "") (one : p ≠ "/") (two : p ≠ "//") (q : String) :
    rootOf (p ++ q) = rootOf p := by
  by_cases all : slashes p = p.toList.length
  · have spelled := eq_of_slashes all
    rw [rootOf_eq, rootOf_eq, slashes_append, if_pos all, ← all]
    generalize slashes p = n at spelled
    match n with
    | 0 => exact absurd spelled empty
    | 1 => exact absurd spelled one
    | 2 => exact absurd spelled two
    | n + 3 =>
      rw [Nat.add_right_comm]
      rfl
  · rw [rootOf_eq, rootOf_eq, slashes_append, if_neg all]

theorem rootOf_join_of_relative (relative : isAbsolute p = false) (start : String) :
    rootOf (join start p) = rootOf start := by
  rw [join_of_relative relative, rootOf_append_of_relative relative]
  by_cases closed : start = "" ∨ endsInSlash start
  · have none : gap start = "" := if_pos closed
    rw [none, String.append_empty]
  · -- the gap comes behind a name
    rw [not_or] at closed
    apply rootOf_append_of_ne closed.1
    · rintro rfl
      exact closed.2 (by decide)
    · rintro rfl
      exact closed.2 (by decide)

/-! ## Joining -/

/-- The names of a relative path are pushed onto those that the path before it has left. -/
theorem normalize_join_of_relative (relative : isAbsolute p = false) (start : String) :
    normalize (join start p) =
      ⟨(normalize start).root, ((Text.pieces '/' p).foldl (push (normalize start).root)
        (normalize start).parts.reverse).reverse⟩ := by
  have root : rootOf (join start p) = rootOf start := rootOf_join_of_relative relative start
  have names : (Text.pieces '/' (join start p)).foldl (push (rootOf start)) [] =
      (Text.pieces '/' p).foldl (push (rootOf start))
        ((Text.pieces '/' start).foldl (push (rootOf start)) []) := by
    by_cases empty : start = ""
    · subst empty
      have alone : join "" p = p := by simp [join, relative]
      rw [alone, Text.pieces_empty, List.foldl_cons, push_empty, List.foldl_nil]
    · obtain ⟨front, more, cut, slash, joined⟩ := pieces_join relative empty
      have nothing : ∀ above, more.foldl (push (rootOf start)) above = above := by
        rcases slash with rfl | rfl <;> simp
      rw [joined, cut, List.foldl_append, List.foldl_append, nothing]
  simp only [normalize, root, names, List.reverse_reverse]

/-- Before it is joined a path may be brought into its canonical form. -/
theorem normalize_join_toString (start p : String) :
    normalize (join (normalize start).toString p) = normalize (join start p) := by
  cases kind : isAbsolute p with
  | true => rw [join_of_isAbsolute kind, join_of_isAbsolute kind]
  | false => rw [normalize_join_of_relative kind, normalize_join_of_relative kind,
      normalize_toString]

/-- To resolve a path and then another one from there is to resolve the joined path. -/
theorem resolve_resolve (start p q : String) :
    resolve (resolve start p).toString q = resolve start (join p q) := by
  calc resolve (resolve start p).toString q
      = normalize (join (join start p) q) := normalize_join_toString (join start p) q
    _ = normalize (join start (join p q)) := by rw [join_assoc]

/-- The directory itself may be named on the way. -/
theorem normalize_join_dot (start : String) : normalize (join start ".") = normalize start := by
  have relative : isAbsolute "." = false := by decide
  have piece : Text.pieces '/' "." = ["."] := by decide
  rw [normalize_join_of_relative relative, piece, List.foldl_cons, push_dot, List.foldl_nil,
    List.reverse_reverse]

/-! ## Slashes at the end -/

theorem pieces_append_slash (p : String) :
    Text.pieces '/' (p ++ "/") = Text.pieces '/' p ++ [""] := by
  have cut := Text.pieces_append '/' p ""
  rwa [String.append_empty, Text.pieces_empty] at cut

theorem normalize_append_slash (empty : p ≠ "") (one : p ≠ "/") (two : p ≠ "//") :
    normalize (p ++ "/") = normalize p := by
  have root : rootOf (p ++ "/") = rootOf p := rootOf_append_of_ne empty one two "/"
  simp [normalize, root, pieces_append_slash]

theorem join_append_slash (nonempty : p ≠ "") (start : String) :
    join start (p ++ "/") = join start p ++ "/" := by
  cases kind : isAbsolute p with
  | true => rw [join_of_isAbsolute (by rwa [isAbsolute_append nonempty]), join_of_isAbsolute kind]
  | false =>
    rw [join_of_relative (by rwa [isAbsolute_append nonempty]), join_of_relative kind,
      String.append_assoc, String.append_assoc, String.append_assoc]

/-- Where nothing but slashes is joined, the second path starts with one. -/
theorem isAbsolute_of_join (nonempty : p ≠ "") (slashes : ∀ c ∈ (join start p).toList, c = '/') :
    isAbsolute p := by
  cases kind : isAbsolute p with
  | true => rfl
  | false =>
    have chars : p.toList ≠ [] := fun none => nonempty (String.toList_eq_nil_iff.1 none)
    obtain ⟨c, cs, spelled⟩ := List.exists_cons_of_ne_nil chars
    have first : c = '/' := slashes c (by simp [join_of_relative kind, spelled])
    simp [isAbsolute, spelled, first] at kind

/-- One more slash at the end makes no difference wherever the path starts. -/
theorem normalize_join_append_slash (empty : p ≠ "") (one : p ≠ "/") (two : p ≠ "//")
    (start : String) : normalize (join start (p ++ "/")) = normalize (join start p) := by
  have other : ∀ root : String, (∀ c ∈ root.toList, c = '/') → p ≠ root → join start p ≠ root := by
    intro root slashes different same
    have absolute := isAbsolute_of_join empty (same ▸ slashes)
    exact different ((join_of_isAbsolute absolute start).symm.trans same)
  rw [join_append_slash empty]
  exact normalize_append_slash (other "" (by simp) empty) (other "/" (by simp) one)
    (other "//" (by simp) two)

/-- A path that goes on behind a slash is joined there. -/
theorem append_slash_append (relative : isAbsolute q = false) (p : String) :
    p ++ "/" ++ q = join (p ++ "/") q := by
  have ends : endsInSlash (p ++ "/") := by simp [endsInSlash]
  have none : gap (p ++ "/") = "" := if_pos (.inr ends)
  rw [join_of_relative relative, none, String.append_empty]

/-- A path that goes on behind a slash leads to where the joined path leads, unless the slash makes
another root. -/
theorem normalize_join_below_iff (nonempty : p ≠ "") (relative : isAbsolute q = false)
    (start : String) : normalize (join start (p ++ "/" ++ q)) = normalize (join (join start p) q) ↔
      p ≠ "/" ∧ p ≠ "//" := by
  constructor
  · -- the two roots are told apart where there is nothing before the slash but slashes
    intro same
    have roots : ∀ root : String, isAbsolute root → p = root →
        rootOf (root ++ "/") = rootOf root := by
      rintro root absolute rfl
      have longer : isAbsolute (p ++ "/" ++ q) := by
        rwa [String.append_assoc, isAbsolute_append nonempty]
      have alike := congrArg Path.root same
      rw [join_of_isAbsolute longer, join_of_isAbsolute absolute] at alike
      change rootOf _ = rootOf _ at alike
      rwa [rootOf_append_of_relative relative, rootOf_join_of_relative relative] at alike
    exact ⟨fun one => absurd (roots "/" (by decide) one) (by decide),
      fun two => absurd (roots "//" (by decide) two) (by decide)⟩
  · rintro ⟨one, two⟩
    rw [append_slash_append relative, ← join_assoc, normalize_join_of_relative relative,
      normalize_join_of_relative relative, normalize_join_append_slash nonempty one two]

/-- What is below the directory itself may be named as such. -/
theorem normalize_join_dot_below (relative : isAbsolute p = false) (start : String) :
    normalize (join start ("./" ++ p)) = normalize (join start p) := by
  have here : normalize (join start ("." ++ "/")) = normalize start :=
    (normalize_join_append_slash (by decide) (by decide) (by decide) start).trans
      (normalize_join_dot start)
  have split : "./" ++ p = join ("." ++ "/") p := append_slash_append relative "."
  rw [split, ← join_assoc, normalize_join_of_relative relative, here,
    normalize_join_of_relative relative]

/-- What is written canonically tells the canonical form. -/
theorem toString_normalize_inj :
    (normalize p).toString = (normalize q).toString ↔ normalize p = normalize q := by
  constructor
  · intro same
    rw [← normalize_toString p, same, normalize_toString]
  · exact congrArg toString

end LineShell.Path
