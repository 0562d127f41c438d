import LineShell.Text.Digit
import LineShell.Text.Pieces
import LineShell.Text.Space

/-!
# Numerals of integers

A numeral is an optional sign and then decimal digits of any script, in groups joined by
single underscores, with padding allowed around the whole. A numeral of more than
`maxDigits` digits is refused. `integer?` reads it.
-/

namespace LineShell.Text

def maxDigits : Nat := 4300

/-- White space that may surround a numeral. The separators U+001C to U+001F are white space
but no padding. -/
def isPadding (c : Char) : Bool :=
  isSpace c && !(0x1C ≤ c.toNat && c.toNat ≤ 0x1F)

/-- `s` without the characters of the class `p` at its two ends. -/
def trim (p : Char → Bool) (s : List Char) : List Char :=
  ((s.dropWhile p).reverse.dropWhile p).reverse

/-- The values of the digits of one group, which has at least one. -/
def groupDigits? (group : List Char) : Option (List Nat) :=
  if group.isEmpty then none else group.mapM digitValue?

def digits? (s : List Char) : Option (List Nat) :=
  ((s.splitOn '_').mapM groupDigits?).map List.flatten

/-- The number that decimal digits write, the most significant first. -/
def ofDigits (ds : List Nat) : Nat :=
  ds.foldl (fun n d => 10 * n + d) 0

/-- The natural number without sign or padding. -/
def natural? (s : List Char) : Option Nat :=
  (digits? s).bind fun ds => if ds.length ≤ maxDigits then some (ofDigits ds) else none

/-- The integer with an optional sign and without padding. -/
def signed? : List Char → Option Int
  | '-' :: s => (natural? s).map fun n => -(n : Int)
  | '+' :: s => (natural? s).map Int.ofNat
  | s => (natural? s).map Int.ofNat

/-- The integer that `s` spells, if it is a numeral. -/
def integer? (s : String) : Option Int :=
  signed? (trim isPadding s.toList)

end LineShell.Text
