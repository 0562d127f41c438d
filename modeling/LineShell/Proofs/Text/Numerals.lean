import Mathlib.Data.List.DropRight
import Mathlib.Data.Nat.Digits.Defs
import LineShell.Text.Numeral

/-!
# The grammar of numerals

A numeral is padding, an optional sign, decimal digits of any script in groups that are joined by
single underscores, and padding again (`Numeral`). It writes one integer, which `integer?` reads,
and of any other text `integer?` reads nothing.

The digits are told apart from all else that may stand in a numeral by their code points
(`digit_cases`), so there is one way only to take a numeral apart.

Main statements: `integer?_eq_some_iff`, and `numeral_toString` for the decimal text of an integer.
-/

namespace LineShell.Text

/-- The decimal digit of value `d` of some script. -/
def IsDigit (c : Char) (d : Nat) : Prop :=
  ∃ start ∈ zeros, c.toNat = start + d ∧ d < 10

/-- Decimal digits of the given values, with at most one underscore between neighbours. -/
inductive Digits : List Char → List Nat → Prop
  | last {c : Char} {d : Nat} (digit : IsDigit c d) : Digits [c] [d]
  | next {c : Char} {d : Nat} {s : List Char} {ds : List Nat} (digit : IsDigit c d)
      (more : Digits s ds) : Digits (c :: s) (d :: ds)
  | joined {c : Char} {d : Nat} {s : List Char} {ds : List Nat} (digit : IsDigit c d)
      (more : Digits s ds) : Digits (c :: '_' :: s) (d :: ds)

/-- An optional sign, and what it multiplies by. -/
inductive Sign : List Char → Int → Prop
  | none : Sign [] 1
  | plus : Sign ['+'] 1
  | minus : Sign ['-'] (-1)

/-- The text writes the integer. There are at most 4300 digits, the most significant first. -/
inductive Numeral : List Char → Int → Prop
  | intro {before sign body after : List Char} {factor : Int} {ds : List Nat}
      (padding : ∀ c ∈ before ++ after, isPadding c) (signed : Sign sign factor)
      (digits : Digits body ds) (short : ds.length ≤ 4300) :
      Numeral (before ++ (sign ++ body) ++ after) (factor * (Nat.ofDigits 10 ds.reverse : Nat))

/-! ## Digits -/

section
variable {c : Char} {d : Nat}

/-- The runs of ten digits do not meet. -/
theorem zeros_apart : ∀ start ∈ zeros, ∀ other ∈ zeros, start ≤ other → other < start + 10 →
    other = start := by
  decide +kernel

theorem digitValue?_eq_some_iff : digitValue? c = some d ↔ IsDigit c d := by
  unfold digitValue?
  constructor
  · intro found
    obtain ⟨start, first, rfl⟩ := Option.map_eq_some_iff.1 found
    have inRun := List.find?_some first
    simp only [Bool.and_eq_true, decide_eq_true_eq] at inRun
    exact ⟨start, List.mem_of_find?_eq_some first, by omega, by omega⟩
  · rintro ⟨start, listed, place, small⟩
    cases first : zeros.find? fun z => z ≤ c.toNat && c.toNat < z + 10 with
    | none =>
      have outside := List.find?_eq_none.1 first start listed
      simp only [Bool.and_eq_true, decide_eq_true_eq] at outside
      omega
    | some other =>
      have listed' := List.mem_of_find?_eq_some first
      have inRun := List.find?_some first
      simp only [Bool.and_eq_true, decide_eq_true_eq] at inRun
      -- of two runs with the same character the one begins in the other
      have same : other = start := by
        rcases Nat.le_total start other with up | down
        · exact zeros_apart start listed other listed' up (by omega)
        · exact (zeros_apart other listed' start listed down (by omega)).symm
      simp only [Option.map_some, Option.some.injEq, same]
      omega

/-- What is a digit is neither padding, nor a sign, nor an underscore. -/
theorem digit_cases : ∀ start ∈ zeros, ∀ d < 10, isPadding (Char.ofNat (start + d)) = false ∧
    Char.ofNat (start + d) ≠ '-' ∧ Char.ofNat (start + d) ≠ '+' ∧ Char.ofNat (start + d) ≠ '_' := by
  decide +kernel

theorem IsDigit.cases (digit : IsDigit c d) :
    isPadding c = false ∧ c ≠ '-' ∧ c ≠ '+' ∧ c ≠ '_' := by
  obtain ⟨start, listed, place, small⟩ := digit
  have others := digit_cases start listed d small
  rwa [← place, Char.ofNat_toNat] at others

end

/-! ## Groups of digits -/

section
variable {c c' : Char} {s : List Char} {ds : List Nat}

theorem splitOn_underscore (s : List Char) : ('_' :: s).splitOn '_' = [] :: s.splitOn '_' := by
  simp [List.splitOn, List.splitOnP_cons_eq_if_modifyHead]

/-- A character that is no underscore comes to the first group. -/
theorem splitOn_cons (inside : c ≠ '_') {group : List Char} {groups : List (List Char)}
    (cut : s.splitOn '_' = group :: groups) : (c :: s).splitOn '_' = (c :: group) :: groups := by
  simp only [List.splitOn] at cut ⊢
  simp [List.splitOnP_cons_eq_if_modifyHead, inside, cut]

theorem exists_splitOn (s : List Char) : ∃ group groups, s.splitOn '_' = group :: groups :=
  List.exists_cons_of_ne_nil (List.splitOnP_ne_nil _ s)

theorem digits?_of_splitOn {group : List Char} {groups : List (List Char)}
    (cut : s.splitOn '_' = group :: groups) :
    digits? s = (groupDigits? group).bind fun ds =>
      (groups.mapM groupDigits?).map fun others => ds ++ others.flatten := by
  rw [digits?, cut, List.mapM_cons]
  cases groupDigits? group <;> cases groups.mapM groupDigits? <;> rfl

theorem groupDigits?_singleton (c : Char) : groupDigits? [c] = (digitValue? c).map ([·]) := by
  cases value : digitValue? c <;> simp [groupDigits?, value]

theorem groupDigits?_cons (c c' : Char) (group : List Char) :
    groupDigits? (c :: c' :: group) =
      (digitValue? c).bind fun d => (groupDigits? (c' :: group)).map (d :: ·) := by
  simp only [groupDigits?, List.isEmpty_cons, Bool.false_eq_true, if_false]
  rw [List.mapM_cons]
  cases digitValue? c <;> cases (c' :: group).mapM digitValue? <;> rfl

/-- A text that begins with an underscore has an empty group. -/
theorem digits?_underscore (s : List Char) : digits? ('_' :: s) = none :=
  digits?_of_splitOn (splitOn_underscore s)

theorem digits?_singleton (inside : c ≠ '_') : digits? [c] = (digitValue? c).map ([·]) := by
  have cut : [c].splitOn '_' = [[c]] := splitOn_cons inside (List.splitOn_nil '_')
  rw [digits?_of_splitOn cut, groupDigits?_singleton]
  cases digitValue? c <;> rfl

/-- An underscore ends a group of digits. -/
theorem digits?_joined (inside : c ≠ '_') (s : List Char) :
    digits? (c :: '_' :: s) = (digitValue? c).bind fun d => (digits? s).map (d :: ·) := by
  rw [digits?_of_splitOn (splitOn_cons inside (splitOn_underscore s)), groupDigits?_singleton, digits?]
  cases digitValue? c <;> cases (s.splitOn '_').mapM groupDigits? <;> rfl

/-- Two characters of which none is an underscore are in one group. -/
theorem digits?_next (inside : c ≠ '_') (inside' : c' ≠ '_') (s : List Char) :
    digits? (c :: c' :: s) = (digitValue? c).bind fun d => (digits? (c' :: s)).map (d :: ·) := by
  obtain ⟨group, groups, cut⟩ := exists_splitOn s
  have cut' := splitOn_cons inside' cut
  rw [digits?_of_splitOn (splitOn_cons inside cut'), digits?_of_splitOn cut', groupDigits?_cons]
  cases digitValue? c <;> cases groupDigits? (c' :: group) <;> cases groups.mapM groupDigits? <;> rfl

end

/-! ## What the digits read -/

section
variable {s : List Char} {ds : List Nat}

theorem Digits.exists_cons (digits : Digits s ds) :
    ∃ c t d, s = c :: t ∧ IsDigit c d := by
  cases digits with
  | last digit => exact ⟨_, _, _, rfl, digit⟩
  | next digit => exact ⟨_, _, _, rfl, digit⟩
  | joined digit => exact ⟨_, _, _, rfl, digit⟩

theorem Digits.exists_getLast (digits : Digits s ds) : ∃ c d, s.getLast? = some c ∧ IsDigit c d := by
  induction digits with
  | last digit => exact ⟨_, _, rfl, digit⟩
  | next _ _ ih =>
    obtain ⟨c, d, last, digit⟩ := ih
    exact ⟨c, d, by simp [List.getLast?_cons, last], digit⟩
  | joined _ _ ih =>
    obtain ⟨c, d, last, digit⟩ := ih
    exact ⟨c, d, by simp [List.getLast?_cons, last], digit⟩

theorem digits?_of_digits (digits : Digits s ds) : digits? s = some ds := by
  induction digits with
  | last digit => rw [digits?_singleton digit.cases.2.2.2, digitValue?_eq_some_iff.2 digit]; rfl
  | next digit more ih =>
    obtain ⟨c', t, d', rfl, digit'⟩ := more.exists_cons
    rw [digits?_next digit.cases.2.2.2 digit'.cases.2.2.2, digitValue?_eq_some_iff.2 digit, ih]
    rfl
  | joined digit _ ih =>
    rw [digits?_joined digit.cases.2.2.2, digitValue?_eq_some_iff.2 digit, ih]
    rfl

theorem digits_of_digits? : ∀ {s : List Char} {ds : List Nat}, digits? s = some ds → Digits s ds
  | [], ds, read => by cases read
  | c :: s, ds, read => by
    have inside : c ≠ '_' := by
      rintro rfl
      rw [digits?_underscore] at read
      cases read
    match s with
    | [] =>
      rw [digits?_singleton inside] at read
      obtain ⟨d, value, rfl⟩ := Option.map_eq_some_iff.1 read
      exact .last (digitValue?_eq_some_iff.1 value)
    | c' :: s =>
      by_cases joins : c' = '_'
      · subst joins
        rw [digits?_joined inside] at read
        obtain ⟨d, value, rest⟩ := Option.bind_eq_some_iff.1 read
        obtain ⟨others, more, rfl⟩ := Option.map_eq_some_iff.1 rest
        exact .joined (digitValue?_eq_some_iff.1 value) (digits_of_digits? more)
      · rw [digits?_next inside joins] at read
        obtain ⟨d, value, rest⟩ := Option.bind_eq_some_iff.1 read
        obtain ⟨others, more, rfl⟩ := Option.map_eq_some_iff.1 rest
        exact .next (digitValue?_eq_some_iff.1 value) (digits_of_digits? more)

theorem digits?_eq_some_iff : digits? s = some ds ↔ Digits s ds :=
  ⟨digits_of_digits?, digits?_of_digits⟩

/-- The most significant digit comes first. -/
theorem ofDigits_eq (ds : List Nat) : ofDigits ds = Nat.ofDigits 10 ds.reverse := by
  induction ds using List.reverseRecOn with
  | nil => rfl
  | append_singleton ds d ih =>
    have step : ofDigits (ds ++ [d]) = 10 * ofDigits ds + d := by simp [ofDigits]
    rw [step, ih, List.reverse_append, List.reverse_singleton, List.singleton_append,
      Nat.ofDigits_cons, Nat.add_comm]

theorem natural?_eq_some_iff {n : Nat} : natural? s = some n ↔
    ∃ ds, Digits s ds ∧ ds.length ≤ 4300 ∧ Nat.ofDigits 10 ds.reverse = n := by
  simp only [natural?, Option.bind_eq_some_iff, digits?_eq_some_iff, ofDigits_eq, maxDigits]
  refine exists_congr fun ds => and_congr_right fun _ => ?_
  split
  case isTrue short => simp [short]
  case isFalse long => simp [long]

/-! ## Signs -/

/-- A sign is told from the digits behind it. -/
theorem signed?_append {sign : List Char} {factor : Int} {n : Nat} (signed : Sign sign factor)
    (digits : Digits s ds) (natural : natural? s = some n) :
    signed? (sign ++ s) = some (factor * n) := by
  cases signed with
  | none =>
    obtain ⟨c, t, d, rfl, digit⟩ := digits.exists_cons
    obtain ⟨_, minus, plus, _⟩ := digit.cases
    simp only [List.nil_append, one_mul]
    unfold signed?
    split
    case h_1 same => exact absurd (List.cons.inj same).1 minus
    case h_2 same => exact absurd (List.cons.inj same).1 plus
    case h_3 => simp [natural]
  | plus => simp [signed?, natural]
  | minus => simp [signed?, natural]

theorem exists_sign {n : Int} (read : signed? s = some n) : ∃ sign body factor m,
    s = sign ++ body ∧ Sign sign factor ∧ natural? body = some m ∧ n = factor * (m : Int) := by
  unfold signed? at read
  split at read
  case h_1 body =>
    cases natural : natural? body with
    | none => simp [natural] at read
    | some m => exact ⟨['-'], body, -1, m, rfl, .minus, natural, by simpa [natural] using read.symm⟩
  case h_2 body =>
    cases natural : natural? body with
    | none => simp [natural] at read
    | some m => exact ⟨['+'], body, 1, m, rfl, .plus, natural, by simpa [natural] using read.symm⟩
  case h_3 =>
    cases natural : natural? s with
    | none => simp [natural] at read
    | some m => exact ⟨[], s, 1, m, rfl, .none, natural, by simpa [natural] using read.symm⟩

end

/-! ## Padding -/

section
variable {p : Char → Bool} {before after s : List Char}

theorem trim_eq (p : Char → Bool) (s : List Char) : trim p s = (s.dropWhile p).rdropWhile p :=
  rfl

/-- Only padding is taken away. -/
theorem exists_trim (p : Char → Bool) (s : List Char) :
    ∃ before after, s = before ++ trim p s ++ after ∧ ∀ c ∈ before ++ after, p c := by
  refine ⟨s.takeWhile p, (s.dropWhile p).rtakeWhile p, ?_, fun c listed => ?_⟩
  · rw [List.append_assoc, trim_eq, List.rdropWhile_append_rtakeWhile, List.takeWhile_append_dropWhile]
  · rcases List.mem_append.1 listed with front | back
    · exact List.mem_takeWhile_imp front
    · exact List.mem_rtakeWhile_imp back

/-- At a character that is no padding nothing more is taken away. -/
theorem dropWhile_padded {padding : List Char} (padded : ∀ c ∈ padding, p c) (nonempty : s ≠ [])
    (first : ∀ c ∈ s.head?, ¬ p c) : (padding ++ s).dropWhile p = s := by
  obtain ⟨c, t, rfl⟩ := List.exists_cons_of_ne_nil nonempty
  rw [List.dropWhile_append_of_pos padded]
  exact List.dropWhile_cons_of_neg (first c rfl)

/-- All padding around a text is taken away that neither begins nor ends with padding. -/
theorem trim_padded (padding : ∀ c ∈ before ++ after, p c) (nonempty : s ≠ [])
    (first : ∀ c ∈ s.head?, ¬ p c) (last : ∀ c ∈ s.getLast?, ¬ p c) :
    trim p (before ++ s ++ after) = s := by
  rw [List.forall_mem_append] at padding
  have front : (before ++ (s ++ after)).dropWhile p = s ++ after := by
    apply dropWhile_padded padding.1
    · simp [nonempty]
    · rwa [List.head?_append_of_ne_nil _ nonempty]
  have back : (after.reverse ++ s.reverse).dropWhile p = s.reverse := by
    apply dropWhile_padded
    · simpa using padding.2
    · simpa using nonempty
    · rwa [List.head?_reverse]
  rw [trim, List.append_assoc, front, List.reverse_append, back, List.reverse_reverse]

end

/-! ## Numerals -/

section
variable {s : List Char} {n : Int}

theorem signed_ends {sign body : List Char} {factor : Int} {ds : List Nat}
    (signed : Sign sign factor) (digits : Digits body ds) :
    (∀ c ∈ (sign ++ body).head?, ¬ isPadding c) ∧ ∀ c ∈ (sign ++ body).getLast?, ¬ isPadding c := by
  constructor
  · cases signed with
    | none =>
      obtain ⟨c, t, d, rfl, digit⟩ := digits.exists_cons
      rintro _ ⟨⟩
      simp [digit.cases.1]
    | plus =>
      rintro _ ⟨⟩
      decide
    | minus =>
      rintro _ ⟨⟩
      decide
  · obtain ⟨c, d, last, digit⟩ := digits.exists_getLast
    rw [List.getLast?_append, last]
    rintro _ ⟨⟩
    simp [digit.cases.1]

/-- `integer?` reads the numerals of an integer and nothing else. -/
theorem integer?_eq_some_iff {s : String} {n : Int} : integer? s = some n ↔ Numeral s.toList n := by
  unfold integer?
  constructor
  · intro read
    obtain ⟨before, after, whole, padding⟩ := exists_trim isPadding s.toList
    obtain ⟨sign, body, factor, m, split, signed, natural, rfl⟩ := exists_sign read
    obtain ⟨ds, digits, short, rfl⟩ := natural?_eq_some_iff.1 natural
    rw [whole, split]
    exact .intro padding signed digits short
  · intro numeral
    generalize s.toList = text at numeral
    cases numeral with
    | intro padding signed digits short =>
      obtain ⟨first, last⟩ := signed_ends signed digits
      have nonempty := digits.exists_cons
      rw [trim_padded padding (by obtain ⟨c, t, d, rfl, _⟩ := nonempty; simp) first last]
      exact signed?_append signed digits (natural?_eq_some_iff.2 ⟨_, digits, short, rfl⟩)

end

/-! ## Decimal texts -/

theorem isDigit_of_isDigit {c : Char} (ascii : c.isDigit) : IsDigit c (c.toNat - '0'.toNat) := by
  obtain ⟨low, high⟩ := Char.isDigit_iff_toNat.1 ascii
  have nine : '9'.toNat < '0'.toNat + 10 := by decide
  exact ⟨'0'.toNat, by decide, by omega, by omega⟩

/-- Decimal digits without underscores. -/
theorem digits_of_isDigit {s : List Char} (nonempty : s ≠ []) (ascii : ∀ c ∈ s, c.isDigit) :
    Digits s (s.map fun c => c.toNat - '0'.toNat) := by
  induction s with
  | nil => exact absurd rfl nonempty
  | cons c s ih =>
    rw [List.forall_mem_cons] at ascii
    by_cases single : s = []
    · subst single
      exact .last (isDigit_of_isDigit ascii.1)
    · exact .next (isDigit_of_isDigit ascii.1) (ih single ascii.2)

/-- The digits of a natural number write it. -/
theorem digits_toDigits (m : Nat) : ∃ ds, Digits (Nat.toDigits 10 m) ds ∧
    ds.length = (Nat.toDigits 10 m).length ∧ Nat.ofDigits 10 ds.reverse = m := by
  refine ⟨(Nat.toDigits 10 m).map fun c => c.toNat - '0'.toNat, ?_, List.length_map _, ?_⟩
  · exact digits_of_isDigit Nat.toDigits_ne_nil fun c listed =>
      Nat.isDigit_of_mem_toDigits (by decide) (by decide) listed
  · rw [← ofDigits_eq, ofDigits, List.foldl_map]
    exact Nat.ofDigitChars_toDigits (by decide) (by decide)

/-- The decimal text of an integer of at most 4300 digits is one of its numerals. -/
theorem numeral_toString {n : Int} (short : (toString n.natAbs).length ≤ 4300) :
    Numeral (toString n).toList n := by
  obtain ⟨ds, digits, length, value⟩ := digits_toDigits n.natAbs
  have text : ∀ m : Nat, (toString m).toList = Nat.toDigits 10 m := fun m => String.toList_ofList
  have short' : ds.length ≤ 4300 := by
    rwa [length, ← text, String.length_toList]
  have plain : ∀ {sign : List Char} {factor : Int}, Sign sign factor →
      Numeral (sign ++ Nat.toDigits 10 n.natAbs) (factor * n.natAbs) := by
    intro sign factor signed
    have padding : ∀ c ∈ ([] ++ [] : List Char), isPadding c := nofun
    have numeral := Numeral.intro padding signed digits short'
    rwa [List.nil_append, List.append_nil, value] at numeral
  cases n with
  | ofNat m =>
    have whole := plain .none
    rwa [List.nil_append, one_mul, ← text] at whole
  | negSucc m =>
    have whole := plain .minus
    have spelled : (toString (Int.negSucc m)).toList = '-' :: Nat.toDigits 10 (m + 1) := by
      change ("-" ++ toString (m + 1)).toList = _
      rw [String.toList_append, text]
      rfl
    rw [spelled]
    have value : Int.negSucc m = -1 * ((Int.negSucc m).natAbs : Int) := by
      rw [Int.natAbs_negSucc]
      omega
    rw [value]
    exact whole

example : integer? " -4_2\t" = some (-42) := by decide

end LineShell.Text
