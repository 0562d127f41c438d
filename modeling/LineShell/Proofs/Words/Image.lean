import LineShell.Proofs.Words.Reading

/-!
# What a line can be cut into

A word that has no quoted part consists of parts of one bare character each, so its token can be
spelled (`Word.isSpellable_token`). A line of spelled tokens is cut into these tokens again
(`tokenize_line`), so the tokens that can be spelled are all that there are.

Main statement: `tokenize_image`.
-/

namespace LineShell.Token

/-- A part without quotes is a character that stands for itself. -/
theorem Piece.exists_bare {p : Piece} (unquoted : p.isQuoted = false) :
    ∃ c, p.text = [c] ∧ isBare c := by
  cases p with
  | bare c stands => exact ⟨c, rfl, stands⟩
  | enclosed => cases unquoted
  | unclosed => cases unquoted

/-- The token of a word can be spelled: without quotes there is at least one bare character in the
word, and nothing else. -/
theorem Word.isSpellable_token (w : Word) : w.token.IsSpellable := by
  intro unquoted
  have parts : ∀ p ∈ w.pieces, p.isQuoted = false := by
    simpa [Word.token] using unquoted
  constructor
  · obtain ⟨p, others, split⟩ := w.exists_first
    obtain ⟨c, text, _⟩ := Piece.exists_bare (parts p (split ▸ List.mem_cons_self))
    simp [Word.token, split, text]
  · intro c listed
    simp only [Word.token, String.toList_ofList, List.mem_flatMap] at listed
    obtain ⟨p, isPart, inside⟩ := listed
    obtain ⟨d, text, bare⟩ := Piece.exists_bare (parts p isPart)
    rw [text, List.mem_singleton] at inside
    exact inside ▸ bare

theorem isSpellable_of_mem_tokenize {line : String} {t : Token} (listed : t ∈ tokenize line) :
    t.IsSpellable := by
  obtain ⟨layout, spelled⟩ := Layout.exists_layout line.toList
  have words : tokenize line = layout.tokens := by
    rw [tokenize, ← spelled, scan_spelling]
  rw [words] at listed
  obtain ⟨w, _, rfl⟩ := List.mem_map.1 listed
  exact w.isSpellable_token

/-- Some line is cut into given tokens if and only if each of them that is not quoted has a text
that is not empty and holds neither blanks nor quotes, whatever the quoted ones hold. A line of this
kind is the one in which each quoted token is spelled between quotes, each other token as it is, and
a single space stands between neighbours: any scanner finds the tokens in it, flags included. -/
theorem tokenize_image (tokens : List Token) :
    ((∃ line, tokenize line = tokens) ↔ ∀ t ∈ tokens, t.quoted = false →
      t.text ≠ "" ∧ ∀ c ∈ t.text.toList, isBlank c = false ∧ isQuote c = false) ∧
    ((∀ t ∈ tokens, t.IsSpellable) ↔
      ∀ scanner : Scanner, (scanner.tokenize (line tokens)).1 = tokens) := by
  have spelled : (∃ line, tokenize line = tokens) ↔ ∀ t ∈ tokens, t.IsSpellable := by
    constructor
    · rintro ⟨line, rfl⟩ t listed
      exact isSpellable_of_mem_tokenize listed
    · exact fun spellable => ⟨line tokens, tokenize_line spellable⟩
  constructor
  · rw [spelled]
    simp only [IsSpellable, isBare, Bool.and_eq_true, Bool.not_eq_true']
  · constructor
    · intro spellable scanner
      rw [scanner.tokenize_eq, tokenize_line spellable]
    · intro found
      rw [← spelled]
      exact ⟨line tokens, (Scanner.tokenize_eq {} _).symm.trans (found {})⟩

end LineShell.Token
