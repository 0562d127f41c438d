import LineShell.Proofs.Words.Reading

/-!
# Cutting a line in two

At a blank outside quotes a line can be cut in two: the words of the line are those of the one part
and then those of the other, since the blank completes the word at hand and leaves nothing of it
(`scan_blank`). Inside a quotation there is no such place, but it makes no difference whether the
quotation is closed at the end of the line (`finish_quotation`), and what stands before the closing
quote comes to the last word (`scan_closing`).

Main statement: `tokenize_at_blank`.
-/

namespace LineShell

namespace Token

variable {line : String} {q c : Char} {text : List Char}

/-! ## Where the machine stands -/

theorem openQuote_eq_some_iff :
    openQuote line = some q ↔ ∃ text, scanEnd .between line.toList = .quotation q text := by
  unfold openQuote
  cases scanEnd .between line.toList <;> simp

theorem endsAt_of_openQuote_eq_none (closed : openQuote line = none) (blank : isBlank c) :
    (scanEnd .between line.toList).endsAt c := by
  cases stands : scanEnd .between line.toList with
  | between => exact blank
  | word text quoted => exact blank
  | quotation q text =>
    rw [openQuote_eq_some_iff.2 ⟨text, stands⟩] at closed
    cases closed

/-- What a scanner keeps of an open quotation is the quote that is to be closed. -/
theorem quote_foldl_read (scanner : Scanner) (line : String) :
    (line.toList.foldl Scanner.read scanner.reset).quote = openQuote line := by
  rw [scanner.foldl_read_reset]
  unfold openQuote
  cases scanEnd .between line.toList <;> rfl

/-! ## What comes next -/

/-- A blank that ends a word leaves nothing of it. -/
theorem scan_blank {s : Scan} (ends : s.endsAt c) (rest : List Char) :
    scan s (c :: rest) = s.finish ++ scan .between rest :=
  if_pos ends

/-- A word is the same whether or not its last quotation is closed. -/
theorem finish_quotation : (Scan.quotation q text).finish = (Scan.word text true).finish :=
  rfl

/-- A blank after the closing quote completes the word with what was in the quotation. -/
theorem scan_closing_blank {body : List Char} (free : q ∉ body) (blank : isBlank c)
    (rest : List Char) : scan (.quotation q text) (body ++ q :: c :: rest) =
      (Scan.word (body.reverse ++ text) true).finish ++ scan .between rest := by
  have ends : (Scan.word (body.reverse ++ text) true).endsAt c := blank
  rw [scan_closing free, scan_blank ends]

/-! ## Lines in two parts -/

variable {a : String}

/-- A blank outside quotes separates the words before it from those after it. -/
theorem tokenize_push_append (closed : openQuote a = none) (blank : isBlank c) (b : String) :
    tokenize (a.push c ++ b) = tokenize a ++ tokenize b := by
  have ends := endsAt_of_openQuote_eq_none closed blank
  calc tokenize (a.push c ++ b)
      = scan .between (a.toList ++ c :: b.toList) := by simp [tokenize]
    _ = completed .between a.toList ++ ((scanEnd .between a.toList).finish ++ tokenize b) := by
        rw [scan_append, scan_blank ends, tokenize]
    _ = tokenize a ++ tokenize b := by
        rw [← List.append_assoc, ← scan_eq]
        rfl

/-- The words of a line that leaves a quotation open: the quotation is in the last one. -/
theorem tokenize_of_quotation (stands : scanEnd .between a.toList = .quotation q text) :
    tokenize a = completed .between a.toList ++ (Scan.word text true).finish := by
  rw [tokenize, scan_eq, stands, finish_quotation]

/-- The end of the line closes a quotation as its quote does. -/
theorem tokenize_push_quote (stands : scanEnd .between a.toList = .quotation q text) :
    tokenize (a.push q) = tokenize a := by
  have closes : scan (.quotation q text) [q] = (Scan.word text true).finish :=
    scan_closing (List.not_mem_nil (a := q)) text []
  calc tokenize (a.push q)
      = scan .between (a.toList ++ [q]) := by simp [tokenize]
    _ = tokenize a := by rw [scan_append, stands, closes, tokenize_of_quotation stands]

/-- The rest of a quotation comes to the last word of the line that leaves it open. -/
theorem tokenize_closed_further_on (stands : scanEnd .between a.toList = .quotation q text)
    {s : String} (free : q ∉ s.toList) (blank : isBlank c) (b : String) :
    tokenize (((a ++ s).push q).push c ++ b) = completed .between a.toList ++
      [{ text := String.ofList text.reverse ++ s, quoted := true }] ++ tokenize b := by
  have word : (Scan.word (s.toList.reverse ++ text) true).finish =
      [{ text := String.ofList text.reverse ++ s, quoted := true }] := by
    simp [Scan.finish, Scan.text, Scan.isQuoted]
  calc tokenize (((a ++ s).push q).push c ++ b)
      = scan .between (a.toList ++ (s.toList ++ q :: c :: b.toList)) := by simp [tokenize]
    _ = completed .between a.toList ++
          ((Scan.word (s.toList.reverse ++ text) true).finish ++ tokenize b) := by
        rw [scan_append, stands, scan_closing_blank free blank, tokenize]
    _ = _ := by rw [word, List.append_assoc]

end Token

/-- Where no quotation is open, a blank divides a line into parts whose words follow each other.
Where one is open, it may be closed at the end of the line or not; closed further on and followed
by a blank, what stands in between comes to the last word, and the words of the second part follow.
Which of the two it is, a scanner that has read the first part can tell. -/
theorem Token.tokenize_at_blank (a b : String) {c : Char} (blank : isBlank c) :
    (∀ scanner : Scanner,
      (a.toList.foldl Scanner.read scanner.reset).quote = openQuote a) ∧
    (openQuote a = none → tokenize (a.push c ++ b) = tokenize a ++ tokenize b) ∧
    ∀ q, openQuote a = some q →
      tokenize (a.push q) = tokenize a ∧
      ∀ s : String, q ∉ s.toList → ∃ words last,
        tokenize a = words ++ [last] ∧
        tokenize (((a ++ s).push q).push c ++ b) =
          words ++ [{ last with text := last.text ++ s }] ++ tokenize b := by
  refine ⟨fun scanner => quote_foldl_read scanner a,
    fun closed => tokenize_push_append closed blank b, fun q opened => ?_⟩
  obtain ⟨text, stands⟩ := openQuote_eq_some_iff.1 opened
  refine ⟨tokenize_push_quote stands, fun s free => ?_⟩
  exact ⟨_, _, tokenize_of_quotation stands, tokenize_closed_further_on stands free blank b⟩

/-- A tab after `a "b` is part of the quotation, and after the closing quote it ends the word. -/
theorem Token.tokenize_at_tab : isBlank '\t' ∧ openQuote "a \"b" = some Text.doubleQuote ∧
    Text.doubleQuote ∉ "\tc".toList ∧
    tokenize (((("a \"b" ++ "\tc").push Text.doubleQuote).push '\t') ++ "d") =
      [⟨"a", false⟩, ⟨"b\tc", true⟩, ⟨"d", false⟩] := by
  have opened : openQuote "a \"b" = some Text.doubleQuote := by decide
  obtain ⟨_, _, divided⟩ := tokenize_at_blank "a \"b" "d" (by decide : isBlank '\t')
  obtain ⟨words, last, first, whole⟩ := (divided _ opened).2 "\tc" (by decide)
  have read : tokenize "a \"b" = [⟨"a", false⟩] ++ [⟨"b", true⟩] := by decide
  obtain ⟨rfl, ⟨⟩⟩ := List.append_inj' (read.symm.trans first) rfl
  exact ⟨by decide, opened, by decide, whole⟩

end LineShell
