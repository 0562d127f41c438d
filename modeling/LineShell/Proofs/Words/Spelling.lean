import Mathlib.Data.List.SplitBy
import LineShell.Token

/-!
# Spelling words

`Token.spell` writes a token so that a line can hold it: a quoted token as fragments between
quotes, any other as it is. `Token.line` puts spelled tokens side by side with a space
between neighbours.

Main statement: `tokenize_line`, cutting such a line gives the tokens back. A fragment is
passed as a whole by `scan_enclosed`, a token by `scan_spell`, and the list is then gone
through token by token.
-/

namespace LineShell.Token

open Text (apostrophe doubleQuote)

/-! ## Fragments -/

/-- The quote for a run of characters that are all apostrophes or hold none. -/
def quoteFor (run : List Char) : Char :=
  if apostrophe ∈ run then doubleQuote else apostrophe

/-- A run of characters between quotes. -/
def enclose (run : List Char) : List Char :=
  quoteFor run :: run ++ [quoteFor run]

/-- Whether two neighbours can stand between the same quotes. -/
def sameKind (a b : Char) : Bool :=
  (a = apostrophe) == (b = apostrophe)

/-- The runs of a text, cut where apostrophes begin and end. The empty text is one run. -/
def runs (text : List Char) : List (List Char) :=
  if text = [] then [[]] else text.splitBy sameKind

/-- Whether a character can stand in a word without quotes. -/
def isBare (c : Char) : Bool :=
  !isBlank c && !isQuote c

/-- Whether a token can be spelled: without quotes there has to be something to see, and
nothing that ends a word or opens a quotation. -/
def IsSpellable (t : Token) : Prop :=
  t.quoted = false → t.text ≠ "" ∧ ∀ c ∈ t.text.toList, isBare c

/-- The spelling of a token. -/
def spell (t : Token) : List Char :=
  if t.quoted then (runs t.text.toList).flatMap enclose else t.text.toList

/-- Spelled tokens with a space between neighbours. -/
def line (tokens : List Token) : String :=
  String.ofList ([' '].intercalate (tokens.map spell))

theorem sameKind_self (a : Char) : sameKind a a := by
  simp [sameKind]

instance : Std.Symm fun a b => sameKind a b = true where
  symm a b h := by
    simp only [sameKind, beq_iff_eq] at h ⊢
    exact h.symm

instance : IsTrans Char fun a b => sameKind a b = true where
  trans a b c h h' := by
    simp only [sameKind, beq_iff_eq] at h h' ⊢
    exact h.trans h'

theorem flatten_runs (text : List Char) : (runs text).flatten = text := by
  unfold runs
  split
  case isTrue empty => simp [empty]
  case isFalse => exact List.flatten_splitBy sameKind text

theorem runs_ne_nil (text : List Char) : runs text ≠ [] := by
  unfold runs
  split
  case isTrue => exact List.cons_ne_nil _ _
  case isFalse nonempty => exact List.splitBy_ne_nil.2 nonempty

/-- In a run either every character is an apostrophe or none is, so no run holds the quote
that it is put between. -/
theorem quoteFor_notMem {text run : List Char} (h : run ∈ runs text) : quoteFor run ∉ run := by
  unfold quoteFor
  split
  case isFalse free => exact free
  case isTrue held =>
    intro other
    -- a run that holds an apostrophe is no empty one
    have isRun : run ∈ text.splitBy sameKind := by
      unfold runs at h
      split at h
      · rw [List.mem_singleton.1 h] at held
        cases held
      · exact h
    have kinds : run.Pairwise fun a b => sameKind a b :=
      (List.isChain_of_mem_splitBy isRun).pairwise
    have alike : sameKind apostrophe doubleQuote :=
      kinds.forall_of_forall (fun c _ => sameKind_self c) held other
    exact absurd alike (by decide)

/-! ## Scanning a spelled token -/

theorem isQuote_quoteFor (run : List Char) : isQuote (quoteFor run) := by
  unfold quoteFor
  split <;> decide

theorem not_isBlank_of_isQuote {c : Char} (h : isQuote c) : isBlank c = false := by
  simp only [isQuote, Bool.or_eq_true, decide_eq_true_eq] at h
  rcases h with rfl | rfl <;> decide

/-- Inside a quotation nothing but its own quote is more than a character of the word. -/
theorem scan_quotation {q : Char} {body : List Char} (free : q ∉ body) (text rest : List Char) :
    scan (.quotation q text) (body ++ rest) = scan (.quotation q (body.reverse ++ text)) rest := by
  induction body generalizing text with
  | nil => rfl
  | cons c body ih =>
    have differs : c ≠ q := fun same => free (same ▸ List.mem_cons_self)
    have later : q ∉ body := fun held => free (List.mem_cons_of_mem c held)
    simp [scan, Scan.endsAt, Scan.step, differs, ih later]

/-- A quotation ends with the first quote that can close it, and its word goes on. -/
theorem scan_closing {q : Char} {body : List Char} (free : q ∉ body) (text rest : List Char) :
    scan (.quotation q text) (body ++ q :: rest) =
      scan (.word (body.reverse ++ text) true) rest := by
  rw [scan_quotation free]
  simp [scan, Scan.endsAt, Scan.step]

/-- A text between quotes adds its characters to the word at hand, which is quoted from then
on. -/
theorem scan_quoted {quote : Char} (opens : isQuote quote) {body : List Char}
    (free : quote ∉ body) (text : List Char) (quoted : Bool) (rest : List Char) :
    scan (.word text quoted) (quote :: body ++ [quote] ++ rest) =
      scan (.word (body.reverse ++ text) true) rest := by
  have ended : Scan.endsAt (.word text quoted) quote = false := not_isBlank_of_isQuote opens
  calc
    scan (.word text quoted) (quote :: body ++ [quote] ++ rest)
        = scan (.quotation quote text) (body ++ quote :: rest) := by
          simp [scan, ended, Scan.step, opens, Scan.text]
    _ = scan (.word (body.reverse ++ text) true) rest := scan_closing free text rest

theorem scan_enclosed {run : List Char} (free : quoteFor run ∉ run) (text : List Char)
    (quoted : Bool) (rest : List Char) :
    scan (.word text quoted) (enclose run ++ rest) =
      scan (.word (run.reverse ++ text) true) rest :=
  scan_quoted (isQuote_quoteFor run) free text quoted rest

/-- Runs between quotes that touch make one word. -/
theorem scan_runs {runs : List (List Char)} (free : ∀ run ∈ runs, quoteFor run ∉ run)
    (text rest : List Char) :
    scan (.word text true) (runs.flatMap enclose ++ rest) =
      scan (.word (runs.flatten.reverse ++ text) true) rest := by
  induction runs generalizing text with
  | nil => rfl
  | cons run runs ih =>
    have first := free run List.mem_cons_self
    have others : ∀ run ∈ runs, quoteFor run ∉ run :=
      fun run h => free run (List.mem_cons_of_mem _ h)
    simp [List.flatMap_cons, List.append_assoc, scan_enclosed first, ih others]

/-- Between words a quote or a bare character begins a word as it would go on in an empty
one. -/
theorem scan_between {c : Char} (h : isBlank c = false) (rest : List Char) :
    scan .between (c :: rest) = scan (.word [] false) (c :: rest) := by
  simp [scan, Scan.endsAt, h, Scan.step, Scan.text, Scan.isQuoted]

theorem scan_bare {text : List Char} (bare : ∀ c ∈ text, isBare c) (before : List Char)
    (quoted : Bool) (rest : List Char) :
    scan (.word before quoted) (text ++ rest) =
      scan (.word (text.reverse ++ before) quoted) rest := by
  induction text generalizing before with
  | nil => rfl
  | cons c text ih =>
    have first := bare c List.mem_cons_self
    simp only [isBare, Bool.and_eq_true, Bool.not_eq_true'] at first
    have others : ∀ c ∈ text, isBare c := fun c h => bare c (List.mem_cons_of_mem _ h)
    simp [scan, Scan.endsAt, Scan.step, Scan.text, Scan.isQuoted, first, ih others]

/-- A spelled token is read as the word at hand. -/
theorem scan_spell {t : Token} (spellable : t.IsSpellable) (rest : List Char) :
    scan .between (t.spell ++ rest) = scan (.word t.text.toList.reverse t.quoted) rest := by
  obtain ⟨text, quoted⟩ := t
  cases quoted with
  | true =>
    -- the first fragment begins the word and the others go on with it
    obtain ⟨run, others, split⟩ := List.exists_cons_of_ne_nil (runs_ne_nil text.toList)
    have free : ∀ r ∈ run :: others, quoteFor r ∉ r := by
      intro r h
      rw [← split] at h
      exact quoteFor_notMem h
    have whole := flatten_runs text.toList
    have opening : isBlank (quoteFor run) = false :=
      not_isBlank_of_isQuote (isQuote_quoteFor run)
    rw [split] at whole
    calc
      scan .between (spell ⟨text, true⟩ ++ rest)
          = scan (.word [] false) (enclose run ++ (others.flatMap enclose ++ rest)) := by
            simp only [spell, if_true, split, List.flatMap_cons, List.append_assoc, enclose,
              List.cons_append]
            exact scan_between opening _
      _ = scan (.word run.reverse true) (others.flatMap enclose ++ rest) := by
            simp [scan_enclosed (free run List.mem_cons_self)]
      _ = scan (.word text.toList.reverse true) rest := by
            rw [scan_runs fun r h => free r (List.mem_cons_of_mem _ h), ← whole]
            simp
  | false =>
    obtain ⟨nonempty, bare⟩ := spellable rfl
    obtain ⟨c, others, split⟩ := List.exists_cons_of_ne_nil
      (fun h => nonempty (String.toList_eq_nil_iff.1 h) : text.toList ≠ [])
    have first := bare c (split ▸ List.mem_cons_self)
    simp only [isBare, Bool.and_eq_true, Bool.not_eq_true'] at first
    calc
      scan .between (spell ⟨text, false⟩ ++ rest)
          = scan (.word [] false) (text.toList ++ rest) := by
            simp only [spell, Bool.false_eq_true, if_false, split, List.cons_append]
            exact scan_between first.1 _
      _ = scan (.word text.toList.reverse false) rest := by
            simp [scan_bare bare]

/-! ## Reading a line of spelled tokens -/

theorem finish_word (t : Token) : Scan.finish (.word t.text.toList.reverse t.quoted) = [t] := by
  simp [Scan.finish, Scan.text, Scan.isQuoted]

/-- Cutting a line of spelled tokens gives the tokens back. -/
theorem tokenize_line {tokens : List Token} (spellable : ∀ t ∈ tokens, t.IsSpellable) :
    tokenize (line tokens) = tokens := by
  suffices scan .between ([' '].intercalate (tokens.map spell)) = tokens by
    simpa [tokenize, line] using this
  induction tokens with
  | nil => rfl
  | cons t tokens ih =>
    have first := spellable t List.mem_cons_self
    have others := ih fun t h => spellable t (List.mem_cons_of_mem _ h)
    cases tokens with
    | nil =>
      -- the last word is ended by the end of the line, every other one by the space after it
      have read := scan_spell first []
      simpa [scan, finish_word] using read
    | cons next tokens =>
      have read := scan_spell first (' ' :: [' '].intercalate ((next :: tokens).map spell))
      have ended : Scan.endsAt (.word t.text.toList.reverse t.quoted) ' ' = true := rfl
      rw [scan, if_pos ended, finish_word, others] at read
      simpa using read

end LineShell.Token
