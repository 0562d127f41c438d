/-!
# Text as bytes

`encode` writes characters in UTF-8. `decode` reads any bytes at all: well-formed sequences
give their characters, and every maximal ill-formed part gives one replacement character.
`decode` is a machine that is structural in the bytes; between two bytes it knows how many
bytes the character at hand still needs (`Awaiting`). `decode?` reads well-formed bytes
only.
-/

namespace LineShell

abbrev Bytes := List UInt8

namespace Utf8

def encode (s : String) : Bytes :=
  s.toList.flatMap String.utf8EncodeChar

/-- The character that stands for bytes that are no text. -/
def replacement : Char := '\uFFFD'

/-- A character of which some bytes are still to come: `more + 1` of them, the next between
`low` and `high`; the bytes so far make up `value`. -/
structure Awaiting where
  more : Nat
  low : Nat
  high : Nat
  value : Nat
deriving DecidableEq

/-- What a byte means where a character may start. -/
inductive Lead
  | character (c : Char)
  | first (a : Awaiting)
  | illFormed

/-- The byte classes at the start of a character. The narrower bounds after `E0` and `F0`
exclude overlong forms, those after `ED` surrogates and those after `F4` numbers past the
last code point. -/
def lead (b : UInt8) : Lead :=
  let n := b.toNat
  if n < 0x80 then .character (Char.ofNat n)
  else if n < 0xC2 then .illFormed
  else if n < 0xE0 then .first ⟨0, 0x80, 0xBF, n - 0xC0⟩
  else if n = 0xE0 then .first ⟨1, 0xA0, 0xBF, 0⟩
  else if n = 0xED then .first ⟨1, 0x80, 0x9F, 0xD⟩
  else if n < 0xF0 then .first ⟨1, 0x80, 0xBF, n - 0xE0⟩
  else if n = 0xF0 then .first ⟨2, 0x90, 0xBF, 0⟩
  else if n < 0xF4 then .first ⟨2, 0x80, 0xBF, n - 0xF0⟩
  else if n = 0xF4 then .first ⟨2, 0x80, 0x8F, 4⟩
  else .illFormed

/-- Reads on in the middle of a character (`some a`) or where one may start (`none`). -/
def decodeFrom : Option Awaiting → Bytes → List Char
  | none, [] => []
  | some _, [] => [replacement]
  | none, b :: bs =>
    match lead b with
    | .character c => c :: decodeFrom none bs
    | .first a => decodeFrom (some a) bs
    | .illFormed => replacement :: decodeFrom none bs
  | some a, b :: bs =>
    if a.low ≤ b.toNat ∧ b.toNat ≤ a.high then
      let value := 64 * a.value + (b.toNat - 0x80)
      match a.more with
      | 0 => Char.ofNat value :: decodeFrom none bs
      | more + 1 => decodeFrom (some ⟨more, 0x80, 0xBF, value⟩) bs
    else
      -- the character at hand is given up, and this byte is read as a first one
      replacement ::
        match lead b with
        | .character c => c :: decodeFrom none bs
        | .first a => decodeFrom (some a) bs
        | .illFormed => replacement :: decodeFrom none bs

/-- The text of any bytes, with replacement characters for what is ill-formed. -/
def decode (bs : Bytes) : String :=
  String.ofList (decodeFrom none bs)

/-- The text of well-formed bytes. A replacement character that `decode` put in does not
lead back to the bytes it was put in for, so comparing the bytes tells the two cases apart.
-/
def decode? (bs : Bytes) : Option String :=
  let s := decode bs
  if encode s = bs then some s else none

end Utf8

end LineShell
