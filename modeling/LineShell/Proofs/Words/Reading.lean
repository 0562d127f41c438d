import LineShell.Proofs.Words.Grammar
import LineShell.Scanner

/-!
# Reading a line by its layout

Cutting a line into words gives one token for each word of its layout
(`scan_words`), and a scanner gives the same tokens whatever lines it has read before
(`Scanner.tokenize_eq`).

Main statement: `tokenize_layout`.
-/

namespace LineShell

namespace Token

/-! ## Words of a layout -/

theorem scan_blanks {gap : List Char} (blank : ∀ c ∈ gap, isBlank c) (rest : List Char) :
    scan .between (gap ++ rest) = scan .between rest := by
  induction gap with
  | nil => rfl
  | cons c gap ih =>
    have first : isBlank c := blank c (.head _)
    have others := ih fun c listed => blank c (.tail _ listed)
    simpa [scan, Scan.endsAt, first, Scan.finish] using others

/-- A word ends where a blank or nothing comes. -/
theorem scan_breaks {rest : List Char} (breaks : Breaks rest) (text : List Char) (quoted : Bool) :
    scan (.word text quoted) rest =
      { text := String.ofList text.reverse, quoted } :: scan .between rest := by
  cases rest with
  | nil => rfl
  | cons c rest =>
    have blank : isBlank c := breaks c rfl
    simp [scan, Scan.endsAt, blank, Scan.finish, Scan.text, Scan.isQuoted]

/-- A quotation that is not closed takes up the rest of the line. -/
theorem scan_unclosed {quote : Char} (opens : isQuote quote) {body : List Char}
    (free : quote ∉ body) (text : List Char) (quoted : Bool) :
    scan (.word text quoted) (quote :: body) =
      [{ text := String.ofList (text.reverse ++ body), quoted := true }] := by
  have ended : Scan.endsAt (.word text quoted) quote = false := not_isBlank_of_isQuote opens
  have body_only := scan_quotation free text []
  rw [List.append_nil] at body_only
  simp [scan, ended, Scan.step, opens, Scan.text, body_only, Scan.finish, Scan.isQuoted]

/-- The parts of a word go on with the word at hand. -/
theorem scan_pieces {ps : List Piece} {rest : List Char} (closed : ClosedBefore ps rest)
    (breaks : Breaks rest) (text : List Char) (quoted : Bool) :
    scan (.word text quoted) (ps.flatMap Piece.spelling ++ rest) =
      { text := String.ofList (text.reverse ++ ps.flatMap Piece.text)
        quoted := quoted || ps.any Piece.isQuoted } :: scan .between rest := by
  induction ps generalizing text quoted with
  | nil => simpa using scan_breaks breaks text quoted
  | cons p ps ih =>
    have others := ih closed.2
    cases p with
    | bare c stands =>
      have blank := not_isBlank_of_isBare stands
      have quote := not_isQuote_of_isBare stands
      simp [Piece.spelling, Piece.text, Piece.isQuoted, scan, Scan.endsAt, blank, Scan.step,
        quote, Scan.text, Scan.isQuoted, others]
    | enclosed quote body opens free =>
      have quoted_part := scan_quoted opens free text quoted (ps.flatMap Piece.spelling ++ rest)
      simp only [List.flatMap_cons, Piece.spelling, List.append_assoc] at quoted_part ⊢
      rw [quoted_part, others]
      simp [Piece.text, Piece.isQuoted]
    | unclosed quote body opens free =>
      -- an unclosed part is the last one, and nothing comes after it
      obtain ⟨rfl, rfl⟩ := closed.1.resolve_left (by rintro ⟨⟩)
      simp [Piece.spelling, Piece.text, Piece.isQuoted, scan_unclosed opens free, scan, Scan.finish]

theorem scan_word {w : Word} {rest : List Char} (closed : ClosedBefore w.pieces rest)
    (breaks : Breaks rest) :
    scan .between (w.spelling ++ rest) = w.token :: scan .between rest := by
  obtain ⟨p, ps, split⟩ := w.exists_first
  obtain ⟨others, begins⟩ : ∃ others,
      w.pieces.flatMap Piece.spelling ++ rest = p.first :: others := by
    have head := p.head?_spelling_append (ps.flatMap Piece.spelling ++ rest)
    rw [← List.append_assoc, ← List.flatMap_cons, ← split] at head
    exact List.head?_eq_some_iff.1 head
  rw [Word.spelling, List.append_assoc, scan_blanks w.blank, begins,
    scan_between p.not_isBlank_first, ← begins, scan_pieces closed breaks]
  simp [Word.token]

/-- Cutting a line gives the words of its layout. -/
theorem scan_spelling (l : Layout) : scan .between l.spelling = l.tokens := by
  obtain ⟨words, trail, blank, apart, closed⟩ := l
  simp only [Layout.spelling, Layout.tokens]
  induction words with
  | nil => simpa [scan, Scan.finish] using scan_blanks blank []
  | cons w words ih =>
    obtain ⟨first, others⟩ := Layout.closedBefore_first closed
    have apart_tail : ∀ u ∈ words.tail, u.gap ≠ [] :=
      fun u listed => apart u (List.mem_of_mem_tail listed)
    rw [List.flatMap_cons, List.append_assoc, scan_word first (Layout.breaks_of_apart blank apart),
      ih apart_tail others, List.map_cons]

end Token

/-! ## The front of a line -/

namespace Token

/-- The words that are complete after the front of a line, whatever comes next. -/
def completed (s : Scan) : List Char → List Token
  | [] => []
  | c :: front =>
    if s.endsAt c then s.finish ++ completed .between front else completed (s.step c) front

/-- Of the front of a line nothing is kept but the words that are complete and the place where
the machine stands. -/
theorem scan_append (s : Scan) (front rest : List Char) :
    scan s (front ++ rest) = completed s front ++ scan (scanEnd s front) rest := by
  induction front generalizing s with
  | nil => rfl
  | cons c front ih =>
    simp only [List.cons_append, scan, completed, scanEnd]
    split
    · rw [ih, List.append_assoc]
    · exact ih _

/-- At the end of a line the word at hand is complete too. -/
theorem scan_eq (s : Scan) (line : List Char) :
    scan s line = completed s line ++ (scanEnd s line).finish := by
  have whole := scan_append s line []
  rwa [List.append_nil] at whole

end Token

/-! ## Scanners -/

namespace Scanner

/-- The scanner that has completed some words and stands somewhere in a line. -/
def standing (tokens : List Token) (s : Token.Scan) : Scanner :=
  { tokens
    text := String.ofList s.text.reverse
    inWord := s ≠ .between
    quote := match s with
      | .quotation quote _ => some quote
      | _ => none
    wasQuoted := s.isQuoted }

theorem endWord_standing (tokens : List Token) (s : Token.Scan) :
    (standing tokens s).endWord = standing (tokens ++ s.finish) .between := by
  cases s <;> simp [standing, endWord, Token.Scan.finish, Token.Scan.text, Token.Scan.isQuoted]

/-- A character that comes to a text is kept in front where the text is kept last first. -/
theorem ofList_reverse_push (text : List Char) (c : Char) :
    (String.ofList text.reverse).push c = String.ofList (c :: text).reverse :=
  String.toList_injective (by simp)

/-- A character does to the fields of a scanner what it does to the place in the line. -/
theorem read_standing (tokens : List Token) (s : Token.Scan) (c : Char) :
    (standing tokens s).read c =
      if s.endsAt c then standing (tokens ++ s.finish) .between else standing tokens (s.step c) := by
  cases s with
  | quotation quote text =>
    by_cases closes : c = quote
    · simp [standing, read, Token.Scan.endsAt, Token.Scan.step, closes, Token.Scan.text,
        Token.Scan.isQuoted]
    · simp [standing, read, Token.Scan.endsAt, Token.Scan.step, closes, Token.Scan.text,
        Token.Scan.isQuoted, ofList_reverse_push, -List.reverse_cons]
  | _ =>
    -- outside a quotation the character opens one, ends the word or belongs to it
    by_cases opens : Token.isQuote c
    · have unended := Token.not_isBlank_of_isQuote opens
      simp [standing, read, Token.Scan.endsAt, Token.Scan.step, opens, unended, Token.Scan.text,
        Token.Scan.isQuoted]
    by_cases blank : Token.isBlank c
    · rw [← endWord_standing]
      simp [standing, read, Token.Scan.endsAt, opens, blank]
    · simp [standing, read, Token.Scan.endsAt, Token.Scan.step, opens, blank, Token.Scan.text,
        Token.Scan.isQuoted, ofList_reverse_push, -List.reverse_cons, -List.reverse_nil]

/-- A scanner that reads the front of a line keeps the words that are complete and stands where
the machine does. -/
theorem foldl_read_standing (tokens : List Token) (s : Token.Scan) (front : List Char) :
    front.foldl read (standing tokens s) =
      standing (tokens ++ Token.completed s front) (Token.scanEnd s front) := by
  induction front generalizing tokens s with
  | nil => rw [List.foldl_nil, Token.completed, List.append_nil, Token.scanEnd]
  | cons c front ih =>
    rw [List.foldl_cons, read_standing, Token.completed, Token.scanEnd]
    split
    · rw [ih, List.append_assoc]
    · exact ih tokens _

/-- A scanner that begins with a line stands where the machine does, whatever it has read before. -/
theorem foldl_read_reset (s : Scanner) (line : String) :
    line.toList.foldl read s.reset =
      standing (Token.completed .between line.toList) (Token.scanEnd .between line.toList) :=
  foldl_read_standing [] .between line.toList

/-- What a scanner has read before does not matter for a line. -/
theorem tokenize_eq (s : Scanner) (line : String) : (s.tokenize line).1 = Token.tokenize line := by
  calc (s.tokenize line).1
      = (line.toList.foldl read s.reset).endWord.tokens := rfl
    _ = Token.completed .between line.toList ++ (Token.scanEnd .between line.toList).finish := by
        rw [foldl_read_reset, endWord_standing]
        rfl
    _ = Token.tokenize line := (Token.scan_eq .between line.toList).symm

end Scanner

/-- Every line can be split by the grammar in exactly one way, and cutting it into words gives
one token for each word, in order. A scanner gives the same whatever it has read before. -/
theorem Token.tokenize_layout (line : String) :
    ∃ layout : Layout, layout.spelling = line.toList ∧
      (∀ other : Layout, other.spelling = line.toList → other = layout) ∧
      tokenize line = layout.words.map (fun w =>
        { text := String.ofList (w.pieces.flatMap Piece.text)
          quoted := w.pieces.any Piece.isQuoted }) ∧
      ∀ (scanner : Scanner) (earlier : List String),
        ((scanner.tokenizeAll earlier).2.tokenize line).1 = tokenize line := by
  obtain ⟨layout, spelled⟩ := Layout.exists_layout line.toList
  refine ⟨layout, spelled, fun other spelled' => ?_, ?_, fun scanner earlier => ?_⟩
  · exact Layout.spelling_injective (spelled'.trans spelled.symm)
  · have read := scan_spelling layout
    rwa [spelled] at read
  · exact (scanner.tokenizeAll earlier).2.tokenize_eq line

end LineShell
