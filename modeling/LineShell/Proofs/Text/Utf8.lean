import LineShell.Proofs.Output

/-!
# Texts and their bytes

Bytes are valid if they write characters (`Utf8.IsValid`). Reading takes one character after the
other off what was written: a first byte tells how many bytes follow and between which bounds the
next one is, and each further byte adds six bits (`decodeFrom_utf8EncodeChar`). So nothing is
replaced in valid bytes.

Main statements: `decode_encode`, and `encode_decode` for valid bytes.
-/

namespace LineShell.Utf8

/-- The bytes are those of a text. -/
def IsValid (bytes : Bytes) : Prop :=
  bytes.toByteArray.IsValidUTF8

theorem isValid_iff {bytes : Bytes} : IsValid bytes ↔ ∃ s, encode s = bytes := by
  constructor
  · rintro ⟨text, written⟩
    have same := congrArg (·.data.toList) written
    simp only [List.utf8Encode, List.data_toByteArray] at same
    exact ⟨String.ofList text, by simpa [encode] using same.symm⟩
  · rintro ⟨s, rfl⟩
    exact ⟨s.toList, rfl⟩

theorem isValid_encode (s : String) : IsValid (encode s) :=
  isValid_iff.2 ⟨s, rfl⟩

/-! ## One byte after the other -/

theorem toNat_ofNat {n : Nat} (small : n < 256) : (UInt8.ofNat n).toNat = n := by
  simpa using Nat.mod_eq_of_lt small

/-- A byte within the bounds adds its last six bits and ends the character. -/
theorem decodeFrom_last {low high value bits : Nat} (above : low ≤ bits + 128)
    (below : bits + 128 ≤ high) (small : bits < 64) (rest : Bytes) :
    decodeFrom (some ⟨0, low, high, value⟩) (UInt8.ofNat (bits + 128) :: rest) =
      Char.ofNat (64 * value + bits) :: decodeFrom none rest := by
  rw [decodeFrom, toNat_ofNat (by omega), if_pos ⟨above, below⟩, Nat.add_sub_cancel]

/-- After such a byte any byte may come that goes on with a character. -/
theorem decodeFrom_next {more low high value bits : Nat} (above : low ≤ bits + 128)
    (below : bits + 128 ≤ high) (small : bits < 64) (rest : Bytes) :
    decodeFrom (some ⟨more + 1, low, high, value⟩) (UInt8.ofNat (bits + 128) :: rest) =
      decodeFrom (some ⟨more, 0x80, 0xBF, 64 * value + bits⟩) rest := by
  rw [decodeFrom, toNat_ofNat (by omega), if_pos ⟨above, below⟩, Nat.add_sub_cancel]

/-- What the first of three bytes says: the next one is bounded so that the character is neither
written with too many bytes nor a surrogate. -/
theorem lead_three {bits : Nat} (small : bits < 16) :
    ∃ low high, lead (UInt8.ofNat (bits + 224)) = .first ⟨1, low, high, bits⟩ ∧
      ∀ next < 64, (low ≤ next + 128 ∧ next + 128 ≤ high ↔
        32 ≤ 64 * bits + next ∧ ¬ (864 ≤ 64 * bits + next ∧ 64 * bits + next < 896)) := by
  unfold lead
  rw [toNat_ofNat (by omega)]
  by_cases least : bits = 0
  · exact ⟨0xA0, 0xBF, by simp [least], by omega⟩
  by_cases surrogates : bits = 13
  · exact ⟨0x80, 0x9F, by simp [surrogates], by omega⟩
  refine ⟨0x80, 0xBF, ?_, by omega⟩
  dsimp only
  repeat rw [if_neg (by omega)]
  rw [if_pos (by omega), Nat.add_sub_cancel]

/-- What the first of four bytes says: the next one is bounded so that the character is neither
written with too many bytes nor past the last one. -/
theorem lead_four {bits : Nat} (small : bits < 5) :
    ∃ low high, lead (UInt8.ofNat (bits + 240)) = .first ⟨2, low, high, bits⟩ ∧
      ∀ next < 64, (low ≤ next + 128 ∧ next + 128 ≤ high ↔
        16 ≤ 64 * bits + next ∧ 64 * bits + next < 272) := by
  unfold lead
  rw [toNat_ofNat (by omega)]
  by_cases least : bits = 0
  · exact ⟨0x90, 0xBF, by simp [least], by omega⟩
  by_cases greatest : bits = 4
  · exact ⟨0x80, 0x8F, by simp [greatest], by omega⟩
  refine ⟨0x80, 0xBF, ?_, by omega⟩
  dsimp only
  repeat rw [if_neg (by omega)]
  rw [if_pos (by omega), Nat.add_sub_cancel]

/-- Where a character may start, the bytes of one are read as it. -/
theorem decodeFrom_utf8EncodeChar (c : Char) (rest : Bytes) :
    decodeFrom none (String.utf8EncodeChar c ++ rest) = c :: decodeFrom none rest := by
  have valid : c.val.toNat < 0xD800 ∨ 0xDFFF < c.val.toNat ∧ c.val.toNat < 0x110000 := c.valid
  have same : Char.ofNat c.val.toNat = c := c.ofNat_toNat
  unfold String.utf8EncodeChar
  -- the six bits of each byte, the lowest ones last
  generalize c.val.toNat = n at valid same
  dsimp only
  by_cases one : n ≤ 127
  · rw [if_pos one, List.singleton_append, decodeFrom, lead, toNat_ofNat (by omega),
      if_pos (by omega), same]
  by_cases two : n ≤ 2047
  · have whole : 64 * (n / 64 % 32) + n % 64 = n := by omega
    rw [if_neg one, if_pos two, List.cons_append, List.singleton_append, decodeFrom, lead,
      toNat_ofNat (by omega), if_neg (by omega), if_neg (by omega), if_pos (by omega),
      Nat.add_sub_cancel]
    dsimp only
    rw [decodeFrom_last (by omega) (by omega) (by omega), whole, same]
  by_cases three : n ≤ 65535
  · have whole : 64 * (64 * (n / 4096 % 16) + n / 64 % 64) + n % 64 = n := by omega
    obtain ⟨low, high, first, bounds⟩ := lead_three (show n / 4096 % 16 < 16 by omega)
    obtain ⟨above, below⟩ := (bounds (n / 64 % 64) (by omega)).2 (by omega)
    rw [if_neg one, if_neg two, if_pos three, List.cons_append, decodeFrom, first]
    dsimp only
    rw [List.cons_append, decodeFrom_next above below (by omega), List.singleton_append,
      decodeFrom_last (by omega) (by omega) (by omega), whole, same]
  · have whole : 64 * (64 * (64 * (n / 262144 % 8) + n / 4096 % 64) + n / 64 % 64) + n % 64 = n := by
      omega
    obtain ⟨low, high, first, bounds⟩ := lead_four (show n / 262144 % 8 < 5 by omega)
    obtain ⟨above, below⟩ := (bounds (n / 4096 % 64) (by omega)).2 (by omega)
    rw [if_neg one, if_neg two, if_neg three, List.cons_append, decodeFrom, first]
    dsimp only
    rw [List.cons_append, decodeFrom_next above below (by omega), List.cons_append,
      decodeFrom_next (by omega) (by omega) (by omega), List.singleton_append,
      decodeFrom_last (by omega) (by omega) (by omega), whole, same]

/-! ## Whole texts -/

theorem decode_encode (s : String) : decode (encode s) = s := by
  suffices all : ∀ text : List Char,
      decodeFrom none (text.flatMap String.utf8EncodeChar) = text by
    rw [decode, encode, all, String.ofList_toList]
  intro text
  induction text with
  | nil => rfl
  | cons c text ih => rw [List.flatMap_cons, decodeFrom_utf8EncodeChar, ih]

/-- Nothing is replaced in valid bytes. -/
theorem encode_decode {bytes : Bytes} (valid : IsValid bytes) : encode (decode bytes) = bytes := by
  obtain ⟨s, rfl⟩ := isValid_iff.1 valid
  rw [decode_encode]

instance : DecidablePred IsValid := fun bytes =>
  decidable_of_iff (encode (decode bytes) = bytes)
    ⟨fun same => same ▸ isValid_encode _, encode_decode⟩

/-- A byte that goes on with a character where none has begun is replaced. -/
example : decode (encode "¢€" ++ [0x80]) = "¢€\ufffd" := by decide +kernel

end LineShell.Utf8
