import LineShell.Fault
import LineShell.Proofs.Path.Normal

/-!
# The names below a root

Of the pieces of a path its canonical form keeps some, in their order, and adds none. So it is no
longer than the path (`utf8ByteSize_normalize_le`) and holds no character that the path does not
hold (`holdsNull_of_normalize`). Where no piece is `..`, all names are kept
(`parts_of_not_mem`).
-/

namespace LineShell

/-! ## Pieces -/

namespace Text

variable {sep : Char}

theorem pieces_ne_nil (sep : Char) (s : String) : pieces sep s ≠ [] := by
  simp [pieces, List.splitOn_ne_nil]

/-- A text is cut at the separator between two parts of it. -/
theorem pieces_append (sep : Char) (s t : String) :
    pieces sep (s ++ String.singleton sep ++ t) = pieces sep s ++ pieces sep t := by
  have glued : glue sep (pieces sep s ++ pieces sep t) = s ++ String.singleton sep ++ t := by
    rw [glue, String.intercalate_append_of_ne_nil (pieces_ne_nil sep s) (pieces_ne_nil sep t)]
    change glue sep _ ++ String.singleton sep ++ glue sep _ = _
    rw [glue_pieces, glue_pieces]
  rw [← glued]
  apply pieces_glue
  · simp [pieces_ne_nil]
  · intro piece listed
    rcases List.mem_append.1 listed with listed | listed
    · exact not_mem_of_mem_pieces listed
    · exact not_mem_of_mem_pieces listed

theorem glue_cons_cons (first second : String) (others : List String) :
    glue sep (first :: second :: others) =
      first ++ String.singleton sep ++ glue sep (second :: others) :=
  String.intercalate_cons_cons

end Text

theorem holdsNull_append (s t : String) : holdsNull (s ++ t) = (holdsNull s || holdsNull t) := by
  simp [holdsNull]

theorem holdsNull_glue {sep : Char} (visible : sep ≠ '\x00') (names : List String) :
    holdsNull (Text.glue sep names) = names.any holdsNull := by
  induction names with
  | nil => rfl
  | cons first others ih =>
    cases others with
    | nil => simp [Text.glue]
    | cons second others =>
      have clean : holdsNull (String.singleton sep) = false := by
        simp [holdsNull, Ne.symm visible]
      rw [Text.glue_cons_cons, holdsNull_append, holdsNull_append, clean, ih]
      simp

theorem holdsNull_eq_any_pieces {sep : Char} (visible : sep ≠ '\x00') (s : String) :
    holdsNull s = (Text.pieces sep s).any holdsNull := by
  rw [← holdsNull_glue visible, Text.glue_pieces]

namespace Path

theorem holdsNull_join {p : String} (start : String) (holds : holdsNull p) :
    holdsNull (join start p) := by
  cases kind : isAbsolute p with
  | true => rwa [join_of_isAbsolute kind]
  | false => rw [join_of_relative kind, holdsNull_append, holds, Bool.or_true]

theorem holdsNull_of_join {start p : String} (holds : holdsNull (join start p)) :
    holdsNull start ∨ holdsNull p := by
  have slash : holdsNull "/" = false := by decide
  unfold join at holds
  split at holds
  · exact .inr holds
  · rw [← Bool.or_eq_true]
    split at holds
    · rwa [holdsNull_append] at holds
    · rwa [holdsNull_append, holdsNull_append, slash, Bool.or_false] at holds

variable {root : Root} {above names : List String} {name p : String}

theorem pieces_below (root : Root) (text : String) :
    Text.pieces '/' (root.toString ++ text) = lead root ++ Text.pieces '/' text := by
  have slash : ∀ text, Text.pieces '/' ("/" ++ text) = "" :: Text.pieces '/' text := by
    intro text
    have cut := Text.pieces_append '/' "" text
    rw [Text.pieces_empty, String.empty_append] at cut
    exact cut
  cases root with
  | relative => rw [Root.toString, String.empty_append, lead, List.nil_append]
  | slash => exact slash text
  | doubleSlash =>
    have two : Root.doubleSlash.toString = "/" ++ "/" := by decide
    rw [two, String.append_assoc, slash, slash, lead, List.cons_append, List.cons_append,
      List.nil_append]

/-- A path is its root and what follows the slashes that make it. -/
theorem exists_below (p : String) : ∃ text, p = (rootOf p).toString ++ text := by
  unfold rootOf
  split
  case h_1 rest same =>
    refine ⟨String.ofList ('/' :: '/' :: rest), String.toList_injective ?_⟩
    simp [Root.toString, same]
  case h_2 rest _ same =>
    exact ⟨String.ofList rest, String.toList_injective (by simp [Root.toString, same])⟩
  case h_3 rest _ _ same =>
    exact ⟨String.ofList rest, String.toList_injective (by simp [Root.toString, same])⟩
  case h_4 => exact ⟨p, by simp [Root.toString]⟩

theorem parts_normalize (p : String) : (normalize p).parts =
    ((Text.pieces '/' p).foldl (push (rootOf p)) []).reverse :=
  rfl

/-- A slash at the end leaves an empty piece there. -/
theorem pieces_of_endsInSlash (slash : endsInSlash p) :
    ∃ front, p = front ++ "/" ∧ Text.pieces '/' p = Text.pieces '/' front ++ [""] := by
  obtain ⟨front, spelled⟩ := List.getLast?_eq_some_iff.1 (of_decide_eq_true slash)
  have whole : p = String.ofList front ++ "/" :=
    String.toList_injective (by rw [spelled]; simp)
  have cut := Text.pieces_append '/' (String.ofList front) ""
  rw [String.append_empty, Text.pieces_empty] at cut
  exact ⟨String.ofList front, whole, (congrArg (Text.pieces '/') whole).trans cut⟩

/-- The pieces of a relative path follow those of the path that it is joined to, of which the
empty piece after a slash at the end is left out. -/
theorem pieces_join {start : String} (relative : isAbsolute p = false) (nonempty : start ≠ "") :
    ∃ front more, Text.pieces '/' start = front ++ more ∧ (more = [] ∨ more = [""]) ∧
      Text.pieces '/' (join start p) = front ++ Text.pieces '/' p := by
  rw [join_of_relative relative]
  by_cases slash : endsInSlash start
  · obtain ⟨front, whole, cut⟩ := pieces_of_endsInSlash slash
    refine ⟨Text.pieces '/' front, [""], cut, .inr rfl, ?_⟩
    rw [gap, if_pos (.inr slash), String.append_empty, whole]
    exact Text.pieces_append '/' front p
  · refine ⟨Text.pieces '/' start, [], by rw [List.append_nil], .inl rfl, ?_⟩
    rw [gap, if_neg (not_or.2 ⟨nonempty, slash⟩)]
    exact Text.pieces_append '/' start p

/-! ## Length -/

/-- How many bytes names take up with a slash after each. -/
def span : List String → Nat
  | [] => 0
  | name :: names => name.utf8ByteSize + 1 + span names

@[simp] theorem span_nil : span [] = 0 := rfl

@[simp] theorem span_cons (name : String) (names : List String) :
    span (name :: names) = name.utf8ByteSize + 1 + span names := rfl

theorem span_append (names more : List String) : span (names ++ more) = span names + span more := by
  induction names with
  | nil => simp
  | cons name names ih => simp only [List.cons_append, span_cons, ih, Nat.add_assoc]

@[simp] theorem span_reverse (names : List String) : span names.reverse = span names := by
  induction names with
  | nil => rfl
  | cons name names ih =>
    rw [List.reverse_cons, span_append, ih, span_cons, span_cons, span_nil]
    omega

theorem utf8ByteSize_glue (nonempty : names ≠ []) :
    (Text.glue '/' names).utf8ByteSize + 1 = span names := by
  induction names with
  | nil => exact absurd rfl nonempty
  | cons first others ih =>
    cases others with
    | nil => simp [Text.glue]
    | cons second others =>
      have slash : (String.singleton '/').utf8ByteSize = 1 := by decide
      rw [Text.glue_cons_cons, span_cons, ← ih (by simp), String.utf8ByteSize_append,
        String.utf8ByteSize_append, slash]
      omega

theorem utf8ByteSize_glue_le (names : List String) :
    (Text.glue '/' names).utf8ByteSize ≤ span names - 1 := by
  by_cases empty : names = []
  · subst empty
    decide
  · have size := utf8ByteSize_glue empty
    omega

theorem span_push_le (root : Root) (above : List String) (name : String) :
    span (push root above name) ≤ span above + (name.utf8ByteSize + 1) := by
  unfold push
  split
  · exact Nat.le_add_right _ _
  split
  case isTrue up =>
    subst up
    split
    · split
      · exact Nat.le_add_left _ _
      · exact Nat.zero_le _
    · split
      · simp only [span_cons]
        omega
      · simp only [span_cons]
        omega
  case isFalse =>
    simp only [span_cons]
    omega

theorem span_foldl_push_le (root : Root) (above names : List String) :
    span (names.foldl (push root) above) ≤ span above + span names := by
  induction names generalizing above with
  | nil => exact Nat.le_add_right _ _
  | cons name names ih =>
    have rest := ih (push root above name)
    have first := span_push_le root above name
    rw [List.foldl_cons, span_cons]
    omega

/-- The canonical form of an absolute path is no longer than the path. -/
theorem utf8ByteSize_normalize_le (absolute : (normalize p).root ≠ .relative) :
    (normalize p).toString.utf8ByteSize ≤ p.utf8ByteSize := by
  obtain ⟨text, whole⟩ := exists_below p
  have cut : Text.pieces '/' p = lead (rootOf p) ++ Text.pieces '/' text :=
    (congrArg (Text.pieces '/') whole).trans (pieces_below (rootOf p) text)
  have written : (normalize p).toString =
      (rootOf p).toString ++ Text.glue '/' (normalize p).parts := by
    unfold toString
    rw [if_neg fun bare => absolute bare.1]
    rfl
  have kept : span (normalize p).parts ≤ span (Text.pieces '/' text) := by
    rw [parts_normalize, cut, foldl_push_lead, span_reverse]
    simpa using span_foldl_push_le (rootOf p) [] (Text.pieces '/' text)
  have glued := utf8ByteSize_glue_le (normalize p).parts
  have size := utf8ByteSize_glue (Text.pieces_ne_nil '/' text)
  rw [Text.glue_pieces] at size
  calc (normalize p).toString.utf8ByteSize
      = (rootOf p).toString.utf8ByteSize
          + (Text.glue '/' (normalize p).parts).utf8ByteSize := by
        rw [written, String.utf8ByteSize_append]
    _ ≤ (rootOf p).toString.utf8ByteSize + text.utf8ByteSize := by omega
    _ = p.utf8ByteSize := by rw [← String.utf8ByteSize_append, ← whole]

/-! ## Names -/

theorem mem_of_mem_foldl_push {part : String} (listed : part ∈ names.foldl (push root) above) :
    part ∈ above ∨ part ∈ names := by
  induction names generalizing above with
  | nil => exact .inl listed
  | cons name names ih =>
    rcases ih listed with pushed | later
    · unfold push at pushed
      split at pushed
      · exact .inl pushed
      split at pushed
      case isTrue up =>
        subst up
        split at pushed
        · split at pushed
          · exact .inr (by simpa using .inl (List.mem_singleton.1 pushed))
          · cases pushed
        · split at pushed
          · rcases List.mem_cons.1 pushed with same | kept
            · exact .inr (by simp [same])
            · exact .inl kept
          · exact .inl (.tail _ pushed)
      case isFalse =>
        rcases List.mem_cons.1 pushed with same | kept
        · exact .inr (by simp [same])
        · exact .inl kept
    · exact .inr (.tail _ later)

theorem mem_pieces_of_mem_parts {part : String} (listed : part ∈ (normalize p).parts) :
    part ∈ Text.pieces '/' p := by
  have pushed := List.mem_reverse.1 listed
  rcases mem_of_mem_foldl_push pushed with none | listed
  · cases none
  · exact listed

theorem holdsNull_of_normalize (holds : holdsNull (normalize p).toString) : holdsNull p := by
  unfold toString at holds
  split at holds
  · exact absurd holds (by decide)
  · have root : ∀ root : Root, holdsNull root.toString = false := by
      intro root
      cases root <;> decide
    rw [holdsNull_append, root, Bool.false_or, holdsNull_glue (by decide)] at holds
    obtain ⟨part, listed, holds⟩ := List.any_eq_true.1 holds
    rw [holdsNull_eq_any_pieces (by decide : '/' ≠ '\x00')]
    exact List.any_eq_true.2 ⟨part, mem_pieces_of_mem_parts listed, holds⟩

/-- Whether a name asks for nothing but the directory at hand. -/
def stays (name : String) : Bool :=
  name = "" ∨ name = "."

/-- Where no piece takes a name back, all pieces are kept that lead on. -/
theorem foldl_push_of_not_mem (plain : ".." ∉ names) :
    names.foldl (push root) above = (names.filter (!stays ·)).reverse ++ above := by
  induction names generalizing above with
  | nil => rfl
  | cons name names ih =>
    rw [List.mem_cons, not_or] at plain
    rw [List.foldl_cons, ih plain.2]
    unfold push
    by_cases skipped : name = "" ∨ name = "."
    · have kept : stays name = true := decide_eq_true skipped
      rw [if_pos skipped, List.filter_cons_of_neg (by simp [kept])]
    · have kept : stays name = false := decide_eq_false skipped
      rw [if_neg skipped, if_neg (Ne.symm plain.1), List.filter_cons_of_pos (by simp [kept]),
        List.reverse_cons, List.append_assoc]
      rfl

theorem parts_of_not_mem (plain : ".." ∉ Text.pieces '/' p) :
    (normalize p).parts = (Text.pieces '/' p).filter (!stays ·) := by
  rw [parts_normalize, foldl_push_of_not_mem plain, List.append_nil, List.reverse_reverse]

end Path

end LineShell
