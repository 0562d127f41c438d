import LineShell.Text.Printable

/-!
# Quoted texts

The written form of a text inside a message: the text between two quotes, with everything
that could be mistaken or not be seen written as an escape. A text that holds apostrophes
and no double quote is put between double quotes, every other text between apostrophes.

Main definitions: `quote` for one text, `quoteList` for a list of texts in brackets.
-/

namespace LineShell.Text

/-- The two quotes. -/
def apostrophe : Char := '\x27'

@[inherit_doc apostrophe]
def doubleQuote : Char := '\x22'

/-- The lower-case hexadecimal digit of `d < 16`. -/
def hexDigit (d : Nat) : Char :=
  Char.ofNat (if d < 10 then 0x30 + d else 0x57 + d)

/-- The last `width` hexadecimal digits of `n`, the most significant first. -/
def hexDigits : Nat → Nat → List Char
  | 0, _ => []
  | width + 1, n => hexDigits width (n / 16) ++ [hexDigit (n % 16)]

/-- A character by its code point: two digits after `x`, four after `u` or eight after `U`,
whichever is the first that is wide enough. -/
def escapeCode (c : Char) : List Char :=
  if c.toNat ≤ 0xFF then '\\' :: 'x' :: hexDigits 2 c.toNat
  else if c.toNat ≤ 0xFFFF then '\\' :: 'u' :: hexDigits 4 c.toNat
  else '\\' :: 'U' :: hexDigits 8 c.toNat

/-- How `c` is written between two quotes `q`. -/
def escape (q c : Char) : List Char :=
  if c = q ∨ c = '\\' then ['\\', c]
  else if c = '\t' then ['\\', 't']
  else if c = '\n' then ['\\', 'n']
  else if c = '\r' then ['\\', 'r']
  else if isPrintable c then [c]
  else escapeCode c

def enclosing (s : List Char) : Char :=
  if apostrophe ∈ s ∧ doubleQuote ∉ s then doubleQuote else apostrophe

def quoteChars (s : List Char) : List Char :=
  let q := enclosing s
  q :: s.flatMap (escape q) ++ [q]

def quote (s : String) : String :=
  String.ofList (quoteChars s.toList)

/-- The written form of a list of texts: `['a', 'b']`. -/
def quoteList (ss : List String) : String :=
  "[" ++ ", ".intercalate (ss.map quote) ++ "]"

end LineShell.Text
