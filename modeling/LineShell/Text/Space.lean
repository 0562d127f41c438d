/-!
# White space

`isSpace` holds of the characters of Unicode that only separate text: those of the
bidirectional types "white space", "paragraph separator" and "segment separator" together
with the space separators.
-/

namespace LineShell.Text

/-- White space of Unicode 14. -/
def isSpace (c : Char) : Bool :=
  let n := c.toNat
  (0x09 ≤ n && n ≤ 0x0D) || (0x1C ≤ n && n ≤ 0x20) || n == 0x85 || n == 0xA0 || n == 0x1680
    || (0x2000 ≤ n && n ≤ 0x200A) || n == 0x2028 || n == 0x2029 || n == 0x202F || n == 0x205F
    || n == 0x3000

/-- A line in which nothing but white space stands. -/
def isVoid (line : String) : Bool :=
  line.toList.all isSpace

end LineShell.Text
