import LineShell.Path

/-!
# Joining paths

`Path.join` puts at most one slash between two paths, `gap` says which, and a path that is
seen from the root replaces what stands before it.

Main statements: `join_assoc`, it does not matter in which order three paths are joined, and
`slash_mem_join`, what is joined to a path with something in it holds a slash.
-/

namespace LineShell.Path

/-- What stands between a path and a relative one that is joined to it. -/
def gap (start : String) : String :=
  if start = "" ∨ endsInSlash start then "" else "/"

theorem join_of_isAbsolute {p : String} (h : isAbsolute p) (start : String) : join start p = p := by
  simp [join, h]

theorem join_of_relative {p : String} (h : isAbsolute p = false) (start : String) :
    join start p = start ++ gap start ++ p := by
  simp only [join, h, gap, Bool.false_eq_true, if_false]
  split <;> simp

theorem isAbsolute_append {p : String} (h : p ≠ "") (q : String) :
    isAbsolute (p ++ q) = isAbsolute p := by
  have nonempty : p.toList ≠ [] := fun empty => h (String.toList_eq_nil_iff.1 empty)
  obtain ⟨c, rest, split⟩ := List.exists_cons_of_ne_nil nonempty
  simp [isAbsolute, split]

theorem endsInSlash_append (p : String) {q : String} (h : q ≠ "") :
    endsInSlash (p ++ q) = endsInSlash q := by
  simp [endsInSlash, h]

theorem gap_append (p : String) {q : String} (h : q ≠ "") : gap (p ++ q) = gap q := by
  have nonempty : p ++ q ≠ "" := fun empty => h (String.append_eq_empty_iff.1 empty).2
  simp [gap, nonempty, h, endsInSlash_append p h]

/-- After the gap nothing more is needed before a relative path. -/
theorem gap_append_gap (p : String) : gap (p ++ gap p) = "" := by
  by_cases closed : p = "" ∨ endsInSlash p
  · have none : gap p = "" := if_pos closed
    simp [none]
  · have slash : gap p = "/" := if_neg closed
    have ends : endsInSlash (p ++ "/") := by simp [endsInSlash]
    rw [slash]
    exact if_pos (Or.inr ends)

theorem isAbsolute_join {start : String} (h : isAbsolute start) (p : String) :
    isAbsolute (join start p) := by
  cases kind : isAbsolute p with
  | true => rwa [join_of_isAbsolute kind]
  | false =>
    have nonempty : start ≠ "" := by
      rintro rfl
      exact absurd h (by decide)
    rw [join_of_relative kind, String.append_assoc, isAbsolute_append nonempty, h]

/-- A relative path that is joined to a relative path is relative. -/
theorem isAbsolute_join_of_relative {start p : String} (h : isAbsolute start = false)
    (h' : isAbsolute p = false) : isAbsolute (join start p) = false := by
  rw [join_of_relative h']
  by_cases empty : start = ""
  · simpa [empty, gap] using h'
  · rw [String.append_assoc, isAbsolute_append empty, h]

/-- Three paths can be joined from either side. -/
theorem join_assoc (a b c : String) : join (join a b) c = join a (join b c) := by
  cases kindC : isAbsolute c with
  | true => simp only [join_of_isAbsolute kindC]
  | false =>
    cases kindB : isAbsolute b with
    | true => rw [join_of_isAbsolute kindB, join_of_isAbsolute (isAbsolute_join kindB c)]
    | false =>
      rw [join_of_relative kindC, join_of_relative kindB,
        join_of_relative (isAbsolute_join_of_relative kindB kindC), join_of_relative kindC]
      by_cases empty : b = ""
      · -- an empty path in the middle leaves nothing but the gap after `a`
        have none : gap "" = "" := rfl
        simp [empty, none, gap_append_gap]
      · rw [gap_append _ empty]
        simp only [String.append_assoc]

theorem slash_mem_of_isAbsolute {p : String} (h : isAbsolute p) : '/' ∈ p.toList := by
  simp only [isAbsolute, decide_eq_true_eq] at h
  exact List.mem_of_head? h

/-- Only the path joined to nothing can do without a slash. -/
theorem slash_mem_join {start : String} (h : start ≠ "") (p : String) :
    '/' ∈ (join start p).toList := by
  cases kind : isAbsolute p with
  | true =>
    rw [join_of_isAbsolute kind]
    exact slash_mem_of_isAbsolute kind
  | false =>
    rw [join_of_relative kind]
    by_cases closed : endsInSlash start
    · have ends : '/' ∈ start.toList := by
        simp only [endsInSlash, decide_eq_true_eq] at closed
        exact List.mem_of_getLast? closed
      simp [ends]
    · have slash : gap start = "/" := if_neg (by simp [h, closed])
      simp [slash]

end LineShell.Path
