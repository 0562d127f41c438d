import Mathlib.Data.Nat.Digits.Defs
import LineShell.Proofs.Text.SelfDelimiting
import LineShell.Text.Quoted

/-!
# Reading quoted texts back

An escape tells by the character after its backslash how far it reaches, and a character that
stands for itself is no backslash. So a character can be read off the front of a text that begins
with how it is written (`unescape?_escape`): the digits of a code point are as many as the letter
before them says, and they are enough for it.

The quote before a text says which quote ends it. No character between the two is written with this
quote in front (`head?_escape`), so the quote is the end where it stands in place of a character.

Main statements: `quote_selfDelimiting` and `quoteList_selfDelimiting`.
-/

namespace LineShell.Text

/-! ## Code points -/

/-- The value of a digit that `hexDigit` writes. -/
def hexValue (c : Char) : Nat :=
  if c.toNat < 0x40 then c.toNat - 0x30 else c.toNat - 0x57

/-- The character whose code point is written by the first `width` digits, and what comes after
them. -/
def readCode (width : Nat) (s : List Char) : Char × List Char :=
  (Char.ofNat (Nat.ofDigits 16 ((s.take width).reverse.map hexValue)), s.drop width)

theorem hexValue_hexDigit : ∀ d < 16, hexValue (hexDigit d) = d := by
  decide

theorem length_hexDigits (width n : Nat) : (hexDigits width n).length = width := by
  induction width generalizing n with
  | zero => rfl
  | succ width ih => simp [hexDigits, ih]

theorem ofDigits_hexDigits {width n : Nat} (fits : n < 16 ^ width) :
    Nat.ofDigits 16 ((hexDigits width n).reverse.map hexValue) = n := by
  induction width generalizing n with
  | zero =>
    have zero : n = 0 := by simpa using fits
    simp [hexDigits, zero]
  | succ width ih =>
    have front : n / 16 < 16 ^ width := by
      rw [Nat.pow_succ] at fits
      omega
    have last : hexValue (hexDigit (n % 16)) = n % 16 :=
      hexValue_hexDigit _ (Nat.mod_lt _ (by decide))
    rw [hexDigits, List.reverse_append, List.map_append]
    simp only [List.reverse_singleton, List.map_singleton, List.singleton_append, last,
      Nat.ofDigits_cons, ih front]
    exact Nat.mod_add_div n 16

theorem readCode_hexDigits {width : Nat} {c : Char} (fits : c.toNat < 16 ^ width)
    (s : List Char) : readCode width (hexDigits width c.toNat ++ s) = (c, s) := by
  have taken : (hexDigits width c.toNat ++ s).take width = hexDigits width c.toNat :=
    List.take_left' (length_hexDigits _ _)
  have left : (hexDigits width c.toNat ++ s).drop width = s :=
    List.drop_left' (length_hexDigits _ _)
  rw [readCode, taken, left, ofDigits_hexDigits fits, Char.ofNat_toNat]

/-! ## One character -/

/-- Reads one character between two quotes as `escape` writes it, and gives what comes after it. -/
def unescape? : List Char → Option (Char × List Char)
  | '\\' :: 't' :: s => some ('\t', s)
  | '\\' :: 'n' :: s => some ('\n', s)
  | '\\' :: 'r' :: s => some ('\r', s)
  | '\\' :: 'x' :: s => some (readCode 2 s)
  | '\\' :: 'u' :: s => some (readCode 4 s)
  | '\\' :: 'U' :: s => some (readCode 8 s)
  | '\\' :: c :: s => some (c, s)
  | c :: s => some (c, s)
  | [] => none

theorem unescape?_escapeCode (c : Char) (s : List Char) :
    unescape? (escapeCode c ++ s) = some (c, s) := by
  have valid : c.toNat < 0x110000 := by
    rcases c.valid with below | ⟨_, below⟩
    · exact Nat.lt_trans below (by decide)
    · exact below
  unfold escapeCode
  split
  case isTrue two => exact congrArg some (readCode_hexDigits (by omega) s)
  split
  case isTrue four => exact congrArg some (readCode_hexDigits (by omega) s)
  case isFalse many => exact congrArg some (readCode_hexDigits (by omega) s)

section
variable {q : Char} (isMark : q = apostrophe ∨ q = doubleQuote)
include isMark

theorem unescape?_escape (c : Char) (s : List Char) :
    unescape? (escape q c ++ s) = some (c, s) := by
  unfold escape
  split
  case isTrue marked =>
    -- no letter is escaped by itself, so none is taken for one that tells of an escape
    have listed : c = apostrophe ∨ c = doubleQuote ∨ c = '\\' := by grind
    rcases listed with rfl | rfl | rfl <;> rfl
  case isFalse unmarked =>
    obtain ⟨_, noBackslash⟩ := not_or.1 unmarked
    split
    case isTrue tab => rw [tab]; rfl
    split
    case isTrue newline => rw [newline]; rfl
    split
    case isTrue carriage => rw [carriage]; rfl
    split
    case isTrue printable => simp [unescape?, noBackslash]
    case isFalse unseen => exact unescape?_escapeCode c s

theorem escape_selfDelimiting : SelfDelimiting fun c => String.ofList (escape q c) := by
  intro c d s t same
  have read := congrArg (unescape? ·.toList) same
  simp only [String.toList_append, String.toList_ofList, unescape?_escape isMark] at read
  simpa [String.toList_inj] using read

/-- No character is written with the quote in front. -/
theorem head?_escape (c : Char) : ∃ d, (escape q c).head? = some d ∧ q ≠ d := by
  have noBackslash : q ≠ '\\' := by
    rcases isMark with rfl | rfl <;> decide
  by_cases plain : escape q c = [c]
  · refine ⟨c, by rw [plain]; rfl, ?_⟩
    rintro rfl
    simp [escape] at plain
  · refine ⟨'\\', ?_, noBackslash⟩
    unfold escape escapeCode at plain ⊢
    grind

end

/-! ## Whole texts -/

theorem enclosing_isMark (s : List Char) :
    enclosing s = apostrophe ∨ enclosing s = doubleQuote := by
  unfold enclosing
  split <;> simp

theorem head?_quote (s : String) : (quote s).toList.head? = some (enclosing s.toList) := by
  simp [quote, quoteChars]

theorem ofList_flatMap (f : Char → List Char) (s : List Char) :
    String.ofList (s.flatMap f) = String.join (s.map fun c => String.ofList (f c)) := by
  induction s with
  | nil => rfl
  | cons c s ih => rw [List.flatMap_cons, String.ofList_append, ih, List.map_cons, String.join_cons]

/-- A quoted text is its opening quote, its characters as they are written, and its closing
quote. -/
theorem quote_eq (s : String) :
    quote s = String.singleton (enclosing s.toList) ++
      (String.join (s.toList.map fun c => String.ofList (escape (enclosing s.toList) c)) ++
        String.singleton (enclosing s.toList)) := by
  simp [quote, quoteChars, ofList_flatMap, String.ofList_cons]

theorem quote_selfDelimiting : SelfDelimiting quote := by
  intro a b s t same
  -- the first characters say that both texts are between the same quotes
  have sameMark : enclosing a.toList = enclosing b.toList := by
    have heads := congrArg (·.toList.head?) same
    simpa [head?_quote] using heads
  have isMark := enclosing_isMark b.toList
  have apart : ∀ c s t, String.singleton (enclosing b.toList) ++ s ≠
      String.ofList (escape (enclosing b.toList) c) ++ t := by
    intro c
    obtain ⟨d, first, different⟩ := head?_escape isMark c
    exact append_ne_append (by simp) (by simpa using first) different
  simp only [quote_eq, sameMark, String.append_assoc, String.append_right_inj] at same
  rw [← String.append_assoc, ← String.append_assoc] at same
  obtain ⟨texts, rfl⟩ := (escape_selfDelimiting isMark).join apart same
  exact ⟨String.toList_injective texts, rfl⟩

/-- What begins with no quote is no quoted text. -/
theorem append_ne_quote {word : String} {c : Char} (first : word.toList.head? = some c)
    (other : c ≠ apostrophe ∧ c ≠ doubleQuote) (a : String) (s t : String) :
    word ++ s ≠ quote a ++ t := by
  refine append_ne_append first (head?_quote a) ?_ s t
  rcases enclosing_isMark a.toList with single | double
  · rw [single]
    exact other.1
  · rw [double]
    exact other.2

theorem quoteList_selfDelimiting : SelfDelimiting quoteList := by
  have listed : SelfDelimiting fun ss : List String =>
      ", ".intercalate (ss.map quote) ++ "]" :=
    quote_selfDelimiting.intercalate (append_ne_quote rfl (by decide))
      (append_ne_append rfl rfl (by decide))
  intro as bs s t same
  simp only [quoteList, String.append_assoc, String.append_right_inj] at same
  exact listed (by simpa only [String.append_assoc] using same)

end LineShell.Text
