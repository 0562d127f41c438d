/-!
# Pieces of a text between separators

`pieces` cuts a text at every occurrence of a separator and `glue` puts pieces together
again. Main statements: `glue_pieces` (cutting loses nothing) and `pieces_glue` (pieces that
hold no separator are found again).
-/

namespace LineShell.Text

/-- The pieces of `s` between occurrences of `sep`: one more than there are occurrences. -/
def pieces (sep : Char) (s : String) : List String :=
  (s.toList.splitOn sep).map String.ofList

/-- The pieces in order with one `sep` between neighbours. -/
def glue (sep : Char) (ps : List String) : String :=
  (String.singleton sep).intercalate ps

@[simp] theorem pieces_empty (sep : Char) : pieces sep "" = [""] := by
  simp [pieces]

/-- Cutting a text and gluing the pieces gives the text back. -/
@[simp] theorem glue_pieces (sep : Char) (s : String) : glue sep (pieces sep s) = s := by
  have toList_ofList : String.toList ∘ String.ofList = id := by
    funext l
    simp
  apply String.toList_injective
  simp [glue, pieces, toList_ofList, String.toList_intercalate, List.intercalate_splitOn]

/-- Pieces without a separator in them are what gluing and cutting finds again. -/
theorem pieces_glue {sep : Char} {ps : List String} (nonempty : ps ≠ [])
    (free : ∀ p ∈ ps, sep ∉ p.toList) : pieces sep (glue sep ps) = ps := by
  have cut : ([sep].intercalate (ps.map String.toList)).splitOn sep = ps.map String.toList := by
    apply List.splitOn_intercalate
    · intro l hl
      obtain ⟨p, hp, rfl⟩ := List.mem_map.1 hl
      exact free p hp
    · simpa using nonempty
  have ofList_toList : String.ofList ∘ String.toList = id := by
    funext s
    simp
  simp [pieces, glue, String.toList_intercalate, cut, ofList_toList]

end LineShell.Text
