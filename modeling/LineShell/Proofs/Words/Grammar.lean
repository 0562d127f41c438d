import LineShell.Proofs.Words.Spelling

/-!
# The grammar of a line

A line consists of words with blanks around them, and a word of parts that touch: characters
that stand for themselves, texts between two quotes, and at the end of the line a text after
a quote that is never closed. `Token.Layout` is a line split in this way.

Main statements: every line has a layout (`exists_layout`) and no line has two
(`Layout.spelling_injective`). That there is only one comes down to the character with which
a part begins (`Piece.unique`): it says of which kind the part is, and a body ends with the
first quote that can close it.
-/

namespace LineShell.Token

/-- A part of a word. -/
inductive Piece
  | bare (c : Char) (stands : isBare c)
  | enclosed (quote : Char) (body : List Char) (opens : isQuote quote) (free : quote ∉ body)
  | unclosed (quote : Char) (body : List Char) (opens : isQuote quote) (free : quote ∉ body)

namespace Piece

/-- The characters of the line that a part takes up. -/
def spelling : Piece → List Char
  | bare c _ => [c]
  | enclosed quote body _ _ => quote :: body ++ [quote]
  | unclosed quote body _ _ => quote :: body

/-- What a part adds to its word: the quotes around it are left out. -/
def text : Piece → List Char
  | bare c _ => [c]
  | enclosed _ body _ _ => body
  | unclosed _ body _ _ => body

def isQuoted : Piece → Bool
  | bare .. => false
  | _ => true

def isClosed : Piece → Bool
  | unclosed .. => false
  | _ => true

end Piece

/-- Of the parts before the rest of a line only the last one can be unclosed, and then nothing
comes after it. -/
def ClosedBefore : List Piece → List Char → Prop
  | [], _ => True
  | p :: ps, rest => (p.isClosed ∨ ps = [] ∧ rest = []) ∧ ClosedBefore ps rest

/-- A word with the blanks before it. -/
@[ext]
structure Word where
  gap : List Char
  pieces : List Piece
  blank : ∀ c ∈ gap, isBlank c
  nonempty : pieces ≠ []

namespace Word

def spelling (w : Word) : List Char :=
  w.gap ++ w.pieces.flatMap Piece.spelling

/-- The token that a word is read as: its text without the quotes, and whether there were any. -/
def token (w : Word) : Token :=
  { text := String.ofList (w.pieces.flatMap Piece.text), quoted := w.pieces.any Piece.isQuoted }

end Word

/-- A line split into words. Blanks stand between two words, and may stand at both ends. -/
@[ext]
structure Layout where
  words : List Word
  trail : List Char
  blank : ∀ c ∈ trail, isBlank c
  apart : ∀ w ∈ words.tail, w.gap ≠ []
  closed : ClosedBefore (words.flatMap Word.pieces) trail

namespace Layout

/-- The line that is split. -/
def spelling (l : Layout) : List Char :=
  l.words.flatMap Word.spelling ++ l.trail

def tokens (l : Layout) : List Token :=
  l.words.map Word.token

end Layout

/-! ## Where blanks and parts begin -/

/-- A blank or nothing comes first. -/
def Breaks (rest : List Char) : Prop :=
  ∀ c ∈ rest.head?, isBlank c

/-- A run of characters of one class ends at the first character that is not of the class. -/
theorem append_unique {p : Char → Bool} {run run' rest rest' : List Char}
    (all : ∀ c ∈ run, p c) (all' : ∀ c ∈ run', p c)
    (stop : ∀ c ∈ rest.head?, p c = false) (stop' : ∀ c ∈ rest'.head?, p c = false)
    (same : run ++ rest = run' ++ rest') : run = run' ∧ rest = rest' := by
  have none_taken : ∀ {rest : List Char}, (∀ c ∈ rest.head?, p c = false) →
      rest.takeWhile p = [] := by
    intro rest stop
    cases rest with
    | nil => rfl
    | cons c rest => simp [stop c rfl]
  have taken := congrArg (List.takeWhile p) same
  rw [List.takeWhile_append_of_pos all, List.takeWhile_append_of_pos all', none_taken stop,
    none_taken stop', List.append_nil, List.append_nil] at taken
  subst taken
  exact ⟨rfl, List.append_cancel_left same⟩

theorem not_isBlank_of_isBare {c : Char} (h : isBare c) : isBlank c = false := by
  simp only [isBare, Bool.and_eq_true, Bool.not_eq_true'] at h
  exact h.1

theorem not_isQuote_of_isBare {c : Char} (h : isBare c) : isQuote c = false := by
  simp only [isBare, Bool.and_eq_true, Bool.not_eq_true'] at h
  exact h.2

namespace Piece

/-- The character with which a part begins. -/
def first : Piece → Char
  | bare c _ => c
  | enclosed quote .. => quote
  | unclosed quote .. => quote

theorem isQuote_first (p : Piece) : isQuote p.first = p.isQuoted := by
  cases p with
  | bare c stands => exact not_isQuote_of_isBare stands
  | enclosed quote body opens => exact opens
  | unclosed quote body opens => exact opens

theorem head?_spelling (p : Piece) : p.spelling.head? = some p.first := by
  cases p <;> rfl

/-- A part begins with a character that is no blank. -/
theorem not_isBlank_first (p : Piece) : isBlank p.first = false := by
  cases p with
  | bare c stands => exact not_isBlank_of_isBare stands
  | enclosed quote body opens => exact not_isBlank_of_isQuote opens
  | unclosed quote body opens => exact not_isBlank_of_isQuote opens

theorem head?_spelling_append (p : Piece) (rest : List Char) :
    (p.spelling ++ rest).head? = some p.first := by
  rw [List.head?_append, head?_spelling, Option.some_or]

theorem spelling_ne_nil (p : Piece) : p.spelling ≠ [] := by
  intro empty
  simpa [empty] using p.head?_spelling

/-- A body between quotes ends where the first quote stands that can close it. -/
theorem body_unique {quote : Char} {body body' rest rest' : List Char} (free : quote ∉ body)
    (free' : quote ∉ body') (same : body ++ quote :: rest = body' ++ quote :: rest') :
    body = body' ∧ rest = rest' := by
  have inside : ∀ {body : List Char}, quote ∉ body → ∀ c ∈ body, (c != quote) = true :=
    fun free c listed => bne_iff_ne.2 fun equal => free (equal ▸ listed)
  have ends : ∀ {rest : List Char}, ∀ c ∈ (quote :: rest).head?, (c != quote) = false := by
    simp
  obtain ⟨same, same'⟩ := append_unique (inside free) (inside free') ends ends same
  exact ⟨same, (List.cons.inj same').2⟩

/-- A part that is closed is not read as one that is not: its last quote would stand in the
body of the other one. -/
theorem not_enclosed_append_eq_unclosed {quote quote' : Char} {body body' rest : List Char}
    (free' : quote' ∉ body') : quote :: body ++ [quote] ++ rest ≠ quote' :: body' := by
  intro same
  simp only [List.cons_append, List.cons.injEq] at same
  obtain ⟨rfl, same⟩ := same
  exact free' (by simp [← same])

/-- What a line begins with is one part only. -/
theorem unique {p p' : Piece} {rest rest' : List Char} (closed : p.isClosed ∨ rest = [])
    (closed' : p'.isClosed ∨ rest' = []) (same : p.spelling ++ rest = p'.spelling ++ rest') :
    p = p' ∧ rest = rest' := by
  have first : p.first = p'.first := by
    have heads := congrArg List.head? same
    rw [head?_spelling_append, head?_spelling_append] at heads
    exact Option.some.inj heads
  have kind : p.isQuoted = p'.isQuoted := by rw [← isQuote_first, ← isQuote_first, first]
  cases p with
  | bare c stands =>
    cases p' with
    | bare c' stands' =>
      obtain ⟨rfl, rfl⟩ := List.cons.inj same
      exact ⟨rfl, rfl⟩
    | enclosed => cases kind
    | unclosed => cases kind
  | enclosed quote body opens free =>
    cases p' with
    | bare => cases kind
    | enclosed quote' body' opens' free' =>
      obtain rfl : quote = quote' := first
      obtain ⟨rfl, rfl⟩ := body_unique free free' (by simpa [spelling] using same)
      exact ⟨rfl, rfl⟩
    | unclosed quote' body' opens' free' =>
      obtain rfl : rest' = [] := by simpa [isClosed] using closed'
      rw [List.append_nil] at same
      exact absurd same (not_enclosed_append_eq_unclosed free')
  | unclosed quote body opens free =>
    obtain rfl : rest = [] := by simpa [isClosed] using closed
    rw [List.append_nil] at same
    cases p' with
    | bare => cases kind
    | enclosed quote' body' opens' free' =>
      exact absurd same.symm (not_enclosed_append_eq_unclosed free)
    | unclosed quote' body' opens' free' =>
      obtain rfl : rest' = [] := by simpa [isClosed] using closed'
      rw [List.append_nil] at same
      obtain ⟨rfl, rfl⟩ := List.cons.inj same
      exact ⟨rfl, rfl⟩

end Piece

/-! ## One layout only -/

theorem flatMap_spelling_eq_nil {ps : List Piece} : ps.flatMap Piece.spelling = [] ↔ ps = [] := by
  cases ps <;> simp [Piece.spelling_ne_nil]

theorem closedBefore_append (ps qs : List Piece) (rest : List Char) :
    ClosedBefore (ps ++ qs) rest ↔
      ClosedBefore ps (qs.flatMap Piece.spelling ++ rest) ∧ ClosedBefore qs rest := by
  induction ps with
  | nil => simp [ClosedBefore]
  | cons p ps ih =>
    simp only [List.cons_append, ClosedBefore, ih, List.append_eq_nil_iff,
      flatMap_spelling_eq_nil, and_assoc]

/-- The parts of a word end where a blank or nothing comes. -/
theorem pieces_unique {ps ps' : List Piece} {rest rest' : List Char}
    (closed : ClosedBefore ps rest) (closed' : ClosedBefore ps' rest') (breaks : Breaks rest)
    (breaks' : Breaks rest')
    (same : ps.flatMap Piece.spelling ++ rest = ps'.flatMap Piece.spelling ++ rest') :
    ps = ps' ∧ rest = rest' := by
  -- a part cannot begin where the other word has ended
  have apart : ∀ {p : Piece} {more rest : List Char}, Breaks rest → rest ≠ p.spelling ++ more := by
    rintro p more rest breaks rfl
    have blank : isBlank p.first := breaks _ (p.head?_spelling_append more)
    simp [p.not_isBlank_first] at blank
  induction ps generalizing ps' with
  | nil =>
    cases ps' with
    | nil => exact ⟨rfl, same⟩
    | cons p' ps' => exact absurd (by simpa using same) (apart (p := p') breaks)
  | cons p ps ih =>
    cases ps' with
    | nil => exact absurd (by simpa using same.symm) (apart (p := p) breaks')
    | cons p' ps' =>
      obtain ⟨rfl, others⟩ := Piece.unique (closed.1.imp_right fun ⟨h, h'⟩ => by simp [h, h'])
        (closed'.1.imp_right fun ⟨h, h'⟩ => by simp [h, h']) (by simpa using same)
      obtain ⟨rfl, rfl⟩ := ih closed.2 closed'.2 others
      exact ⟨rfl, rfl⟩

/-- Of the rest of the line only matters whether there is any. -/
theorem ClosedBefore.mono {ps : List Piece} {rest rest' : List Char} (closed : ClosedBefore ps rest)
    (empty : rest = [] → rest' = []) : ClosedBefore ps rest' := by
  induction ps with
  | nil => trivial
  | cons p ps ih => exact ⟨closed.1.imp_right (And.imp_right empty), ih closed.2⟩

namespace Word

/-- There is more to a word than the blanks before it. -/
theorem exists_first (w : Word) : ∃ p ps, w.pieces = p :: ps :=
  List.exists_cons_of_ne_nil w.nonempty

theorem unique {w w' : Word} {rest rest' : List Char} (closed : ClosedBefore w.pieces rest)
    (closed' : ClosedBefore w'.pieces rest') (breaks : Breaks rest) (breaks' : Breaks rest')
    (same : w.spelling ++ rest = w'.spelling ++ rest') : w = w' ∧ rest = rest' := by
  -- the blanks end with the first part
  have ends : ∀ (w : Word) (rest : List Char),
      ∀ c ∈ (w.pieces.flatMap Piece.spelling ++ rest).head?, isBlank c = false := by
    intro w rest c first
    obtain ⟨p, ps, split⟩ := w.exists_first
    rw [split, List.flatMap_cons, List.append_assoc, p.head?_spelling_append] at first
    cases first
    exact p.not_isBlank_first
  simp only [spelling, List.append_assoc] at same
  obtain ⟨gaps, others⟩ := append_unique w.blank w'.blank (ends w rest) (ends w' rest') same
  obtain ⟨parts, rests⟩ := pieces_unique closed closed' breaks breaks' others
  exact ⟨Word.ext gaps parts, rests⟩

/-- No run of blanks is a word. -/
theorem spelling_append_ne {run : List Char} (blank : ∀ c ∈ run, isBlank c) (w : Word)
    (rest : List Char) : run ≠ w.spelling ++ rest := by
  rintro rfl
  obtain ⟨p, ps, split⟩ := w.exists_first
  have held : p.first ∈ w.spelling := by
    have first : p.first ∈ p.spelling := List.mem_of_mem_head? p.head?_spelling
    simp [spelling, split, first]
  have isBlank_first := blank _ (List.mem_append_left rest held)
  simp [p.not_isBlank_first] at isBlank_first

end Word

namespace Layout

/-- After a word comes a blank or the end of the line. -/
theorem breaks_of_apart {words : List Word} {trail : List Char} (blank : ∀ c ∈ trail, isBlank c)
    (apart : ∀ w ∈ words, w.gap ≠ []) : Breaks (words.flatMap Word.spelling ++ trail) := by
  cases words with
  | nil => exact fun c first => blank c (List.mem_of_mem_head? first)
  | cons w words =>
    obtain ⟨c, gap, split⟩ := List.exists_cons_of_ne_nil (apart w (.head _))
    have first : isBlank c := w.blank c (by simp [split])
    simpa [Breaks, Word.spelling, split] using first

/-- The parts of the first word are closed before the words after it. -/
theorem closedBefore_first {w : Word} {words : List Word} {trail : List Char}
    (closed : ClosedBefore ((w :: words).flatMap Word.pieces) trail) :
    ClosedBefore w.pieces (words.flatMap Word.spelling ++ trail) ∧
      ClosedBefore (words.flatMap Word.pieces) trail := by
  rw [List.flatMap_cons, closedBefore_append] at closed
  refine ⟨closed.1.mono fun empty => ?_, closed.2⟩
  rw [List.append_eq_nil_iff, flatMap_spelling_eq_nil] at empty
  cases words with
  | nil => exact empty.2
  | cons w words =>
    obtain ⟨p, ps, split⟩ := w.exists_first
    simp [split] at empty

/-- A line is split in one way only. -/
theorem spelling_injective : Function.Injective spelling := by
  rintro ⟨words, trail, blank, apart, closed⟩ ⟨words', trail', blank', apart', closed'⟩ same
  suffices words = words' ∧ trail = trail' by
    obtain ⟨rfl, rfl⟩ := this
    rfl
  simp only [spelling] at same
  induction words generalizing words' with
  | nil =>
    cases words' with
    | nil => exact ⟨rfl, same⟩
    | cons w' words' =>
      rw [List.flatMap_cons, List.append_assoc] at same
      exact absurd same (w'.spelling_append_ne blank _)
  | cons w words ih =>
    cases words' with
    | nil =>
      rw [List.flatMap_cons, List.append_assoc] at same
      exact absurd same.symm (w.spelling_append_ne blank' _)
    | cons w' words' =>
      obtain ⟨first, others⟩ := closedBefore_first closed
      obtain ⟨first', others'⟩ := closedBefore_first closed'
      rw [List.flatMap_cons, List.flatMap_cons, List.append_assoc, List.append_assoc] at same
      obtain ⟨rfl, rest⟩ := Word.unique first first' (breaks_of_apart blank apart)
        (breaks_of_apart blank' apart') same
      have apart_tail : ∀ u ∈ words.tail, u.gap ≠ [] :=
        fun u listed => apart u (List.mem_of_mem_tail listed)
      have apart_tail' : ∀ u ∈ words'.tail, u.gap ≠ [] :=
        fun u listed => apart' u (List.mem_of_mem_tail listed)
      obtain ⟨rfl, rfl⟩ := ih apart_tail others words' apart_tail' others' rest
      exact ⟨rfl, rfl⟩

end Layout

/-! ## A layout for every line -/

/-- A word of one part, with no blank before it. -/
def Word.ofPiece (p : Piece) : Word :=
  { gap := [], pieces := [p], blank := nofun, nonempty := List.cons_ne_nil p [] }

namespace Layout

def empty : Layout :=
  { words := [], trail := [], blank := nofun, apart := nofun, closed := trivial }

@[simp] theorem spelling_empty : empty.spelling = [] := rfl

/-- A blank comes before the first word, or before the blanks at the end. -/
theorem exists_blank_cons {c : Char} (blank : isBlank c) (l : Layout) :
    ∃ l' : Layout, l'.spelling = c :: l.spelling := by
  obtain ⟨words, trail, blanks, apart, closed⟩ := l
  cases words with
  | nil =>
    refine ⟨⟨[], c :: trail, ?_, nofun, trivial⟩, rfl⟩
    simpa [blank] using blanks
  | cons w words =>
    let gapped : Word := { w with
      gap := c :: w.gap
      blank := by simpa [blank] using w.blank }
    exact ⟨⟨gapped :: words, trail, blanks, apart, closed⟩, rfl⟩

/-- A part begins the word that it touches, or a word of its own. -/
theorem exists_piece_cons (p : Piece) (l : Layout) (ends : p.isClosed ∨ l.spelling = []) :
    ∃ l' : Layout, l'.spelling = p.spelling ++ l.spelling := by
  obtain ⟨words, trail, blank, apart, closed⟩ := l
  cases words with
  | nil =>
    have closed' : ClosedBefore [p] trail := ⟨ends.imp_right fun empty => ⟨rfl, empty⟩, trivial⟩
    refine ⟨⟨[.ofPiece p], trail, blank, nofun, closed'⟩, ?_⟩
    simp [spelling, Word.ofPiece, Word.spelling]
  | cons w words =>
    -- something comes after the part, so it is closed
    have isClosed : p.isClosed := by
      refine ends.resolve_right fun empty => ?_
      obtain ⟨q, qs, split⟩ := w.exists_first
      simp [spelling, Word.spelling, split, q.spelling_ne_nil] at empty
    have closed' : ClosedBefore (p :: (w :: words).flatMap Word.pieces) trail :=
      ⟨.inl isClosed, closed⟩
    by_cases touches : w.gap = []
    · let grown : Word :=
        { gap := [], pieces := p :: w.pieces, blank := nofun, nonempty := List.cons_ne_nil _ _ }
      refine ⟨⟨grown :: words, trail, blank, apart, closed'⟩, ?_⟩
      simp [spelling, grown, Word.spelling, touches]
    · refine ⟨⟨.ofPiece p :: w :: words, trail, blank, ?_, closed'⟩, ?_⟩
      · intro u listed
        cases listed with
        | head => exact touches
        | tail _ listed => exact apart u listed
      · simp [spelling, Word.ofPiece, Word.spelling]

/-- Every line can be split. -/
theorem exists_layout (line : List Char) : ∃ l : Layout, l.spelling = line := by
  -- on the length, since a body between quotes is passed as a whole
  induction size : line.length using Nat.strong_induction_on generalizing line with
  | _ n ih =>
  subst size
  cases line with
  | nil => exact ⟨empty, rfl⟩
  | cons c rest =>
    have shorter : rest.length < (c :: rest).length := Nat.lt_succ_self _
    by_cases blank : isBlank c
    · obtain ⟨l, rfl⟩ := ih _ shorter rest rfl
      exact exists_blank_cons blank l
    by_cases opens : isQuote c
    · by_cases closes : c ∈ rest
      · obtain ⟨body, others, rfl, free⟩ := List.eq_append_cons_of_mem closes
        obtain ⟨l, rfl⟩ := ih others.length (by simp; omega) others rfl
        obtain ⟨l', split⟩ := exists_piece_cons (.enclosed c body opens free) l (.inl rfl)
        exact ⟨l', by simp [split, Piece.spelling]⟩
      · obtain ⟨l', split⟩ := exists_piece_cons (.unclosed c rest opens closes) empty (.inr rfl)
        exact ⟨l', by simp [split, Piece.spelling]⟩
    · have stands : isBare c := by simp [isBare, blank, opens]
      obtain ⟨l, rfl⟩ := ih _ shorter rest rfl
      exact exists_piece_cons (.bare c stands) l (.inl rfl)

end Layout

end LineShell.Token
