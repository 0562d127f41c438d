/-!
# Keywords without regard to case

Keywords are ASCII words, and a text is compared with them after it has been put into one
case by the full case mappings of Unicode. Only characters whose mapping is ASCII can take
part in an agreement; `upper` and `lower` map those and leave all others alone, so a text
agrees with a keyword exactly when it does under the full mapping.
-/

namespace LineShell.Text

/-- The upper case of `c` where it is ASCII, otherwise `c`. -/
def upperChar (c : Char) : List Char :=
  match c with
  | 'ß' => ['S', 'S']
  | 'ı' => ['I']
  | 'ſ' => ['S']
  | 'ﬀ' => ['F', 'F']
  | 'ﬁ' => ['F', 'I']
  | 'ﬂ' => ['F', 'L']
  | 'ﬃ' => ['F', 'F', 'I']
  | 'ﬄ' => ['F', 'F', 'L']
  | 'ﬅ' => ['S', 'T']
  | 'ﬆ' => ['S', 'T']
  | c => [c.toUpper]

/-- The lower case of `c` where it is ASCII, otherwise `c`. The Kelvin sign is the one
character beyond ASCII with such a lower case. -/
def lowerChar (c : Char) : Char :=
  if c.toNat = 0x212A then 'k' else c.toLower

/-- The text in upper case, as far as a comparison with keywords needs it. -/
def upper (s : String) : String :=
  String.ofList (s.toList.flatMap upperChar)

/-- The text in lower case, as far as a comparison with keywords needs it. -/
def lower (s : String) : String :=
  String.ofList (s.toList.map lowerChar)

end LineShell.Text
