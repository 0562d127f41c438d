import LineShell.CommandLine

/-!
# The lines of a text

A text is cut after each line feed and each carriage return, where a carriage return and the line
feed right after it count as one end. What comes after the last end is a line if it is not empty.
`IsCut` says this about a text and its lines without going through the text.

Main statement: `isCut_iff`, by which every text is cut in one way only, the one of `inputLines`.
-/

namespace LineShell.CommandLine

/-- Characters among which no line ends. -/
def IsUnbroken (line : List Char) : Prop :=
  ∀ c ∈ line, c ≠ '\n' ∧ c ≠ '\r'

/-- A text and the lines it is cut into. -/
inductive IsCut : List Char → List String → Prop
  | nothing : IsCut [] []
  | last {line : List Char} (unbroken : IsUnbroken line) (nonempty : line ≠ []) :
      IsCut line [String.ofList line]
  | feed {line rest : List Char} {lines : List String} (unbroken : IsUnbroken line)
      (more : IsCut rest lines) : IsCut (line ++ '\n' :: rest) (String.ofList line :: lines)
  | both {line rest : List Char} {lines : List String} (unbroken : IsUnbroken line)
      (more : IsCut rest lines) : IsCut (line ++ '\r' :: '\n' :: rest) (String.ofList line :: lines)
  | carriage {line rest : List Char} {lines : List String} (unbroken : IsUnbroken line)
      (alone : rest.head? ≠ some '\n') (more : IsCut rest lines) :
      IsCut (line ++ '\r' :: rest) (String.ofList line :: lines)

variable {line rest : List Char} {c : Char}

theorem isUnbroken_nil : IsUnbroken [] := by
  simp [IsUnbroken]

theorem isUnbroken_cons : IsUnbroken (c :: line) ↔ (c ≠ '\n' ∧ c ≠ '\r') ∧ IsUnbroken line :=
  List.forall_mem_cons

theorem IsUnbroken.reverse (unbroken : IsUnbroken line) : IsUnbroken line.reverse :=
  fun c listed => unbroken c (List.mem_reverse.1 listed)

/-! ## Steps of the cutting -/

theorem linesFrom_nil (nonempty : line ≠ []) : linesFrom line [] = [String.ofList line.reverse] :=
  if_neg nonempty

theorem linesFrom_feed (line rest : List Char) :
    linesFrom line ('\n' :: rest) = String.ofList line.reverse :: linesFrom [] rest := by
  simp [linesFrom]

theorem linesFrom_both (line rest : List Char) :
    linesFrom line ('\r' :: '\n' :: rest) = String.ofList line.reverse :: linesFrom [] rest := by
  simp [linesFrom]

theorem linesFrom_carriage (line : List Char) (alone : rest.head? ≠ some '\n') :
    linesFrom line ('\r' :: rest) = String.ofList line.reverse :: linesFrom [] rest := by
  cases rest with
  | nil => simp [linesFrom]
  | cons c rest =>
    have other : c ≠ '\n' := by simpa using alone
    simp [linesFrom, other]

/-- A character at which no line ends is kept for the line at hand. -/
theorem linesFrom_cons (line : List Char) (inside : c ≠ '\n' ∧ c ≠ '\r') (rest : List Char) :
    linesFrom line (c :: rest) = linesFrom (c :: line) rest := by
  simp [linesFrom, inside]

theorem linesFrom_append (line : List Char) {front : List Char} (unbroken : IsUnbroken front)
    (rest : List Char) :
    linesFrom line (front ++ rest) = linesFrom (front.reverse ++ line) rest := by
  induction front generalizing line with
  | nil => rfl
  | cons c front ih =>
    obtain ⟨inside, unbroken⟩ := isUnbroken_cons.1 unbroken
    rw [List.cons_append, linesFrom_cons line inside, ih _ unbroken]
    simp

/-! ## The cut of a text -/

/-- The lines from a line at hand are a cut of it and the rest. -/
theorem isCut_linesFrom (line : List Char) (unbroken : IsUnbroken line) (rest : List Char) :
    IsCut (line.reverse ++ rest) (linesFrom line rest) := by
  have done := unbroken.reverse
  fun_induction linesFrom line rest with
  | case1 => exact .nothing
  | case2 line nonempty =>
    rw [List.append_nil]
    exact .last done (by simpa using nonempty)
  | case3 line rest ih => exact .both done (ih isUnbroken_nil isUnbroken_nil)
  | case4 line c rest other ends ih =>
    have more := ih isUnbroken_nil isUnbroken_nil
    rcases ends with rfl | rfl
    · exact .feed done more
    · refine .carriage done ?_ more
      cases rest with
      | nil => simp
      | cons d rest =>
        intro same
        cases same
        exact other rest rfl rfl
  | case5 line c rest _ inside ih =>
    have longer : IsUnbroken (c :: line) := isUnbroken_cons.2 ⟨not_or.1 inside, unbroken⟩
    simpa using ih longer longer.reverse

/-- There is one way to cut a text. -/
theorem isCut_iff {text : List Char} {lines : List String} :
    IsCut text lines ↔ lines = linesFrom [] text := by
  constructor
  · intro cut
    induction cut with
    | nothing => rfl
    | last unbroken nonempty =>
      have whole := linesFrom_append [] unbroken []
      rw [List.append_nil, List.append_nil] at whole
      rw [whole, linesFrom_nil (by simpa using nonempty), List.reverse_reverse]
    | feed unbroken _ ih =>
      rw [linesFrom_append [] unbroken, linesFrom_feed, ← ih, List.append_nil, List.reverse_reverse]
    | both unbroken _ ih =>
      rw [linesFrom_append [] unbroken, linesFrom_both, ← ih, List.append_nil, List.reverse_reverse]
    | carriage unbroken alone _ ih =>
      rw [linesFrom_append [] unbroken, linesFrom_carriage _ alone, ← ih, List.append_nil,
        List.reverse_reverse]
  · rintro rfl
    exact isCut_linesFrom [] isUnbroken_nil text

example : inputLines "pwd\r\n\rexit 3\ncd" = ["pwd", "", "exit 3", "cd"] := by
  decide +kernel

end LineShell.CommandLine
