import LineShell.Path

/-!
# The written form of canonical paths

The parts of a canonical path are names (`IsName`): there is something in them, and no slash.
Written with slashes between them they are found again, after the empty pieces that the
slashes in front leave (`pieces_toString`), and a path is written by continuing the path of
the directory that it is in (`toString_append`).
-/

namespace LineShell

/-- Between two separators there is none. -/
theorem Text.not_mem_of_mem_splitOn {sep : Char} {cs part : List Char}
    (h : part ∈ cs.splitOn sep) : sep ∉ part := by
  induction cs generalizing part with
  | nil =>
    obtain rfl : part = [] := by simpa using h
    exact List.not_mem_nil
  | cons c cs ih =>
    rw [List.splitOn_cons_eq_if_modifyHead] at h
    split at h
    case isTrue =>
      cases h with
      | head => exact List.not_mem_nil
      | tail _ listed => exact ih listed
    case isFalse other =>
      -- a character that separates nothing comes in front of the first part
      obtain ⟨first, others, split⟩ := List.exists_cons_of_ne_nil (List.splitOn_ne_nil sep cs)
      rw [split] at ih h
      cases h with
      | head =>
        have apart : c ≠ sep := by simpa using other
        intro inside
        cases List.mem_cons.1 inside with
        | inl same => exact apart same.symm
        | inr inside => exact ih (.head _) inside
      | tail _ listed => exact ih (.tail _ listed)

theorem Text.not_mem_of_mem_pieces {sep : Char} {s piece : String} (h : piece ∈ pieces sep s) :
    sep ∉ piece.toList := by
  obtain ⟨part, listed, rfl⟩ := List.mem_map.1 h
  simpa using not_mem_of_mem_splitOn listed

namespace Path

/-- A text that can be the name of something in a directory. -/
def IsName (name : String) : Prop :=
  name ≠ "" ∧ '/' ∉ name.toList

theorem isName_dots : IsName ".." := ⟨by decide, by decide⟩

theorem isName_of_mem_push {root : Root} {above : List String} {name : String}
    (names : ∀ part ∈ above, IsName part) (free : '/' ∉ name.toList) :
    ∀ part ∈ push root above name, IsName part := by
  unfold push
  split
  · exact names
  split
  · -- `..` is kept where there is no name before it to be taken back
    cases above with
    | nil =>
      dsimp only
      split
      · simpa using isName_dots
      · simp
    | cons nearest others =>
      dsimp only
      split
      · intro part listed
        cases listed with
        | head => exact isName_dots
        | tail _ listed => exact names part listed
      · exact fun part listed => names part (.tail _ listed)
  · rename_i skipped _
    intro part listed
    cases listed with
    | head => exact ⟨fun empty => skipped (.inl empty), free⟩
    | tail _ listed => exact names part listed

theorem isName_of_mem_foldl_push {root : Root} {pieces above : List String}
    (free : ∀ piece ∈ pieces, '/' ∉ piece.toList) (names : ∀ part ∈ above, IsName part) :
    ∀ part ∈ pieces.foldl (push root) above, IsName part := by
  induction pieces generalizing above with
  | nil => exact names
  | cons piece pieces ih =>
    have named : ∀ part ∈ push root above piece, IsName part :=
      isName_of_mem_push names (free piece (.head _))
    exact ih (fun other listed => free other (.tail _ listed)) named

theorem isName_of_mem_parts (p : String) : ∀ part ∈ (normalize p).parts, IsName part := by
  intro part listed
  have listed' := List.mem_reverse.1 listed
  refine isName_of_mem_foldl_push (fun _ => Text.not_mem_of_mem_pieces) ?_ part listed'
  simp

/-! ## Writing -/

/-- The empty pieces before the first name. -/
def lead : Root → List String
  | .relative => []
  | .slash => [""]
  | .doubleSlash => ["", ""]

variable {root : Root} {parts : List String}

theorem toString_eq_glue (nonempty : parts ≠ []) :
    toString ⟨root, parts⟩ = Text.glue '/' (lead root ++ parts) := by
  obtain ⟨first, others, rfl⟩ := List.exists_cons_of_ne_nil nonempty
  cases root with
  | relative => simp [toString, Root.toString, lead]
  | slash => simp [toString, Root.toString, lead, Text.glue, String.intercalate_cons_cons]
  | doubleSlash =>
    simp [toString, Root.toString, lead, Text.glue, String.intercalate_cons_cons,
      ← String.append_assoc]

theorem pieces_toString (nonempty : parts ≠ []) (names : ∀ part ∈ parts, IsName part) :
    Text.pieces '/' (toString ⟨root, parts⟩) = lead root ++ parts := by
  rw [toString_eq_glue nonempty]
  apply Text.pieces_glue
  · simp [nonempty]
  · intro part listed
    rcases List.mem_append.1 listed with front | listed
    · cases root <;> simp_all [lead]
    · exact (names part listed).2

/-- A longer path is written by continuing a shorter one. -/
theorem toString_append (nonempty : parts ≠ []) {more : List String} (more_nonempty : more ≠ []) :
    toString ⟨root, parts ++ more⟩ = toString ⟨root, parts⟩ ++ "/" ++ Text.glue '/' more := by
  have front : lead root ++ parts ≠ [] := by simp [nonempty]
  rw [toString_eq_glue nonempty, toString_eq_glue (by simp [nonempty]), ← List.append_assoc]
  exact String.intercalate_append_of_ne_nil front more_nonempty

theorem toString_ne_empty (nonempty : parts ≠ []) (names : ∀ part ∈ parts, IsName part) :
    toString ⟨root, parts⟩ ≠ "" := by
  intro empty
  have pieces : Text.pieces '/' (toString ⟨root, parts⟩) = lead root ++ parts :=
    pieces_toString nonempty names
  rw [empty, Text.pieces_empty] at pieces
  obtain ⟨first, others, rfl⟩ := List.exists_cons_of_ne_nil nonempty
  have named := names first (.head _)
  -- the empty text has one piece, which is empty; no root makes that of names
  cases root with
  | relative =>
    have first_empty : "" = first := (List.cons.inj pieces).1
    exact named.1 first_empty.symm
  | slash => simp [lead] at pieces
  | doubleSlash => simp [lead] at pieces

theorem isAbsolute_toString (nonempty : parts ≠ []) (names : ∀ part ∈ parts, IsName part) :
    isAbsolute (toString ⟨root, parts⟩) = decide (root ≠ .relative) := by
  obtain ⟨first, others, rfl⟩ := List.exists_cons_of_ne_nil nonempty
  cases root with
  | relative =>
    obtain ⟨first_nonempty, free⟩ := names first (.head _)
    have chars : first.toList ≠ [] := fun empty => first_nonempty (String.toList_eq_nil_iff.1 empty)
    obtain ⟨c, rest, spelled⟩ := List.exists_cons_of_ne_nil chars
    have other : c ≠ '/' := by
      rintro rfl
      exact free (by simp [spelled])
    have start : (toString ⟨.relative, first :: others⟩).toList.head? = some c := by
      cases others with
      | nil => simp [toString, Root.toString, Text.glue, spelled]
      | cons => simp [toString, Root.toString, Text.glue, String.intercalate_cons_cons, spelled]
    simp [isAbsolute, start, other]
  | slash => simp [isAbsolute, toString, Root.toString]
  | doubleSlash => simp [isAbsolute, toString, Root.toString]

end Path

end LineShell
