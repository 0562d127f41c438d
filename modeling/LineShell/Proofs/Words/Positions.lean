import Mathlib.Data.Nat.Find
import Mathlib.Tactic.ByContra
import LineShell.Command

/-!
# Operators, targets and words by their position

Reading the words of a line as a command goes from left to right and takes one or two tokens
at a time. Which part a token has in it can be told from the token and the one before it
(`isOperatorAt`, `isTargetAt`, `isWordAt`), and a line is refused for an operator at its end
or before another operator (`isFaultAt`).

Main statements: without such an operator the draft of a command holds the words and the last
redirection of each stream (`ofTokens_of_sound`), otherwise the first such operator is
reported (`ofTokens_of_fault`); `ofTokens_positions` puts both together.
-/

namespace LineShell.Command

/-! ## Positions -/

section
variable (tokens : List Token) (i : Nat)

def operatorAt? : Option Operator :=
  tokens[i]?.bind Token.operator?

def isOperatorAt : Bool :=
  (operatorAt? tokens i).isSome

/-- Whether the token before a position is an operator. -/
def followsOperator : Nat → Bool
  | 0 => false
  | i + 1 => isOperatorAt tokens i

def isWordAt : Bool :=
  i < tokens.length && !isOperatorAt tokens i && !followsOperator tokens i

/-- Whether the file of a redirection stands at a position. -/
def isTargetAt : Bool :=
  i < tokens.length && !isOperatorAt tokens i && followsOperator tokens i

/-- Whether an operator without a file stands at a position. -/
def isFaultAt : Bool :=
  isOperatorAt tokens i && (i + 1 = tokens.length || isOperatorAt tokens (i + 1))

/-- The redirection of a stream that an operator at a position begins. -/
def redirectAt? (c : Channel) : Option Redirect :=
  match operatorAt? tokens i, tokens[i + 1]? with
  | some op, some target => if op.channel = c then some ⟨target.text, op.append⟩ else none
  | _, _ => none

/-- The words that are no operators and no files, in order. -/
def wordsOf : List String :=
  (List.range tokens.length).filterMap fun i =>
    if isWordAt tokens i then tokens[i]?.map (·.text) else none

/-- The redirections of a stream, in order. -/
def redirectsOf (c : Channel) : List Redirect :=
  (List.range tokens.length).filterMap fun i => redirectAt? tokens i c

/-- There are operators and nothing that they are for. -/
def LacksCommand : Prop :=
  (∃ i, isOperatorAt tokens i) ∧ ∀ i, isWordAt tokens i = false

/-- What is said about an operator without a file. -/
def faultAt : ParseError :=
  match tokens[i + 1]? with
  | none => .endOfLine
  | some next => .operator next.text

end

/-- Every token is a word, an operator or a file, and only one of these. -/
theorem accounted {tokens : List Token} {i : Nat} (h : i < tokens.length) :
    (isWordAt tokens i).toNat + (isOperatorAt tokens i).toNat + (isTargetAt tokens i).toNat = 1 := by
  cases operator : isOperatorAt tokens i <;> cases after : followsOperator tokens i <;>
    simp [isWordAt, isTargetAt, h, operator, after]

theorem filterMap_range_succ {α : Type} (f : Nat → Option α) (n : Nat) :
    (List.range (n + 1)).filterMap f = (f 0).toList ++ (List.range n).filterMap (f <| · + 1) := by
  rw [List.range_succ_eq_map, List.filterMap_cons, List.filterMap_map]
  cases f 0 <;> rfl

/-! ## One token more in front

What stands at a position depends on the tokens near it only, so it is the same one position
further on. For a word this needs that the token in front is no operator. -/

section
variable (t : Token) (tokens : List Token) (i : Nat)

@[simp] theorem operatorAt?_succ : operatorAt? (t :: tokens) (i + 1) = operatorAt? tokens i := by
  simp [operatorAt?]

@[simp] theorem isOperatorAt_zero : isOperatorAt (t :: tokens) 0 = t.operator?.isSome := by
  simp [isOperatorAt, operatorAt?]

@[simp] theorem isOperatorAt_succ : isOperatorAt (t :: tokens) (i + 1) = isOperatorAt tokens i := by
  simp [isOperatorAt]

@[simp] theorem isFaultAt_succ : isFaultAt (t :: tokens) (i + 1) = isFaultAt tokens i := by
  simp [isFaultAt]

@[simp] theorem faultAt_succ : faultAt (t :: tokens) (i + 1) = faultAt tokens i := by
  simp [faultAt]

theorem redirectsOf_cons (c : Channel) : redirectsOf (t :: tokens) c =
    (redirectAt? (t :: tokens) 0 c).toList ++ redirectsOf tokens c := by
  simp [redirectsOf, filterMap_range_succ, redirectAt?]

theorem isWordAt_zero : isWordAt (t :: tokens) 0 = t.operator?.isNone := by
  cases h : t.operator? <;> simp [isWordAt, followsOperator, h]

variable {t}

theorem isWordAt_succ (isWord : t.operator? = none) :
    isWordAt (t :: tokens) (i + 1) = isWordAt tokens i := by
  cases i <;> simp [isWordAt, followsOperator, isWord]

theorem wordsOf_word (isWord : t.operator? = none) :
    wordsOf (t :: tokens) = t.text :: wordsOf tokens := by
  simp [wordsOf, filterMap_range_succ, isWordAt_zero, isWord, isWordAt_succ tokens _ isWord]

/-- An operator and its file are no words. -/
theorem wordsOf_redirection {op : Operator} (isOperator : t.operator? = some op) {target : Token}
    (isTarget : target.operator? = none) : wordsOf (t :: target :: tokens) = wordsOf tokens := by
  have first : isWordAt (t :: target :: tokens) 0 = false := by simp [isWordAt_zero, isOperator]
  have second : isWordAt (t :: target :: tokens) 1 = false := by
    simp [isWordAt, followsOperator, isOperator]
  have others : ∀ i, isWordAt (t :: target :: tokens) (i + 1 + 1) = isWordAt tokens i := by
    intro i
    rw [← isWordAt_succ tokens i isTarget]
    simp [isWordAt, followsOperator]
  simp [wordsOf, filterMap_range_succ, first, second, others]

end

/-! ## Reading from left to right -/

namespace Draft

/-- Where every operator has a file, the draft holds the words and the last redirection of each
stream. -/
theorem ofTokens_of_sound {tokens : List Token} (sound : ∀ i, isFaultAt tokens i = false) :
    ofTokens tokens = .ok
      { words := wordsOf tokens
        stdout := (redirectsOf tokens .out).getLast?
        stderr := (redirectsOf tokens .err).getLast? } := by
  fun_induction ofTokens tokens with
  | case1 => rfl
  | case2 t rest isWord ih =>
    have later := ih fun i => by simpa using sound (i + 1)
    have nothing : ∀ c, redirectAt? (t :: rest) 0 c = none := by
      simp [redirectAt?, operatorAt?, isWord]
    rw [later, wordsOf_word rest isWord, redirectsOf_cons, redirectsOf_cons, nothing, nothing]
    rfl
  | case3 t op isOperator =>
    have fault := sound 0
    simp [isFaultAt, isOperator] at fault
  | case4 t op isOperator target rest isOperator' =>
    have fault := sound 0
    simp [isFaultAt, isOperator, isOperator'] at fault
  | case5 t op isOperator target rest isTarget ih =>
    have later := ih fun i => by simpa using sound (i + 2)
    have isTarget : target.operator? = none := by simpa using isTarget
    -- the redirection in front counts for its stream only if no later one does
    have redirects : ∀ c, (redirectsOf (t :: target :: rest) c).getLast? =
        (redirectsOf rest c).getLast?.or
          (if op.channel = c then some ⟨target.text, op.append⟩ else none) := by
      intro c
      rw [redirectsOf_cons, redirectsOf_cons, List.getLast?_append, List.getLast?_append]
      by_cases own : op.channel = c
      · simp [redirectAt?, operatorAt?, isOperator, isTarget, own]
      · simp [redirectAt?, operatorAt?, isOperator, isTarget, own]
    rw [later, wordsOf_redirection rest isOperator isTarget, redirects, redirects]
    cases channel : op.channel <;> simp [Except.map, redirect, channel]

/-- If the first token is at fault, no later one is the first at fault. -/
theorem eq_zero_of_isFaultAt {tokens : List Token} {i : Nat} (fault : isFaultAt tokens 0)
    (first : ∀ j < i, isFaultAt tokens j = false) : i = 0 := by
  cases i with
  | zero => rfl
  | succ i => simp [first 0 (Nat.succ_pos i)] at fault

/-- The first operator without a file is the one that is reported. -/
theorem ofTokens_of_fault {tokens : List Token} {i : Nat} (fault : isFaultAt tokens i)
    (first : ∀ j < i, isFaultAt tokens j = false) :
    ofTokens tokens = .error (faultAt tokens i) := by
  fun_induction ofTokens tokens generalizing i with
  | case1 => simp [isFaultAt, isOperatorAt, operatorAt?] at fault
  | case2 t rest isWord ih =>
    cases i with
    | zero => simp [isFaultAt, isWord] at fault
    | succ i =>
      have before : ∀ j < i, isFaultAt rest j = false :=
        fun j early => by simpa using first (j + 1) (Nat.succ_lt_succ early)
      rw [ih (by simpa using fault) before, faultAt_succ]
      rfl
  | case3 t op isOperator =>
    obtain rfl := eq_zero_of_isFaultAt (by simp [isFaultAt, isOperator]) first
    rfl
  | case4 t op isOperator target rest isOperator' =>
    obtain rfl := eq_zero_of_isFaultAt (by simp [isFaultAt, isOperator, isOperator']) first
    rfl
  | case5 t op isOperator target rest isTarget ih =>
    match i with
    | 0 => simp [isFaultAt, isOperator, isTarget] at fault
    | 1 => simp [isFaultAt, isTarget] at fault
    | i + 2 =>
      have before : ∀ j < i, isFaultAt rest j = false :=
        fun j early => by simpa using first (j + 2) (Nat.add_lt_add_right early 2)
      rw [ih (by simpa using fault) before, faultAt_succ, faultAt_succ]
      rfl

end Draft

/-! ## The command of a list of tokens -/

section
variable {tokens : List Token}

theorem lt_length_of_isOperatorAt {i : Nat} (h : isOperatorAt tokens i) : i < tokens.length := by
  simp only [isOperatorAt, operatorAt?, Option.isSome_bind] at h
  by_cases inside : i < tokens.length
  · exact inside
  · simp [List.getElem?_eq_none (Nat.le_of_not_lt inside)] at h

theorem wordsOf_eq_nil_iff : wordsOf tokens = [] ↔ ∀ i, isWordAt tokens i = false := by
  simp only [wordsOf, List.filterMap_eq_nil_iff, List.mem_range]
  constructor
  · intro none i
    by_cases inside : i < tokens.length
    · simpa [inside] using none i inside
    · simp [isWordAt, inside]
  · intro noWord i _
    simp [noWord i]

/-- With a file for every operator, there is a redirection for every operator. -/
theorem redirectsOf_eq_nil_iff (sound : ∀ i, isFaultAt tokens i = false) :
    (∀ c, redirectsOf tokens c = []) ↔ ∀ i, isOperatorAt tokens i = false := by
  simp only [redirectsOf, List.filterMap_eq_nil_iff, List.mem_range]
  constructor
  · intro none i
    by_contra isOperator
    rw [Bool.not_eq_false] at isOperator
    obtain ⟨op, found⟩ := Option.isSome_iff_exists.1 isOperator
    have inside := lt_length_of_isOperatorAt isOperator
    -- an operator that is not at fault has a token after it
    have followed : i + 1 < tokens.length := by
      have unfaulty := sound i
      simp only [isFaultAt, isOperator, Bool.true_and, Bool.or_eq_false_iff,
        decide_eq_false_iff_not] at unfaulty
      omega
    have redirect := none op.channel i inside
    simp [redirectAt?, found, List.getElem?_eq_getElem followed] at redirect
  · intro noOperator c i _
    have nothing : operatorAt? tokens i = none := by simpa [isOperatorAt] using noOperator i
    simp [redirectAt?, nothing]

theorem eq_nil_of_no_word (noWord : ∀ i, isWordAt tokens i = false)
    (noOperator : ∀ i, isOperatorAt tokens i = false) : tokens = [] := by
  cases tokens with
  | nil => rfl
  | cons t tokens =>
    have word := noWord 0
    have operator := noOperator 0
    rw [isWordAt_zero] at word
    rw [isOperatorAt_zero] at operator
    cases found : t.operator? <;> simp [found] at word operator

theorem ofTokens_of_isFaultAt {i : Nat} (fault : isFaultAt tokens i)
    (first : ∀ j < i, isFaultAt tokens j = false) :
    ofTokens tokens = .error (faultAt tokens i) := by
  rw [ofTokens, Draft.ofTokens_of_fault fault first]
  rfl

theorem message_faultAt (i : Nat) :
    (faultAt tokens i).message =
      let found := (tokens[i + 1]?.map (·.text)).getD "newline"
      s!"syntax error near unexpected token `{found}'" := by
  unfold faultAt
  cases tokens[i + 1]? <;> rfl

theorem ofTokens_of_no_fault (sound : ∀ i, isFaultAt tokens i = false) :
    ofTokens tokens = Draft.command
      { words := wordsOf tokens
        stdout := (redirectsOf tokens .out).getLast?
        stderr := (redirectsOf tokens .err).getLast? } := by
  rw [ofTokens, Draft.ofTokens_of_sound sound]
  rfl

/-- Operators without a word make no command. -/
theorem ofTokens_of_lacksCommand (sound : ∀ i, isFaultAt tokens i = false)
    (lacks : LacksCommand tokens) : ofTokens tokens = .error .noCommand := by
  obtain ⟨⟨i, isOperator⟩, noWord⟩ := lacks
  have redirected : (redirectsOf tokens .out).getLast?.isSome ∨
      (redirectsOf tokens .err).getLast?.isSome := by
    by_contra none
    have nowhere : ∀ c, redirectsOf tokens c = [] := by
      rintro (_ | _) <;> simp_all
    simp [(redirectsOf_eq_nil_iff sound).1 nowhere i] at isOperator
  rw [ofTokens_of_no_fault sound, wordsOf_eq_nil_iff.2 noWord]
  exact if_pos (by simpa using redirected)

theorem ofTokens_of_not_lacksCommand (sound : ∀ i, isFaultAt tokens i = false)
    (has : ¬ LacksCommand tokens) :
    ofTokens tokens = .ok
      { name := (wordsOf tokens).head?
        arguments := (wordsOf tokens).tail
        stdout := (redirectsOf tokens .out).getLast?
        stderr := (redirectsOf tokens .err).getLast? } ∧
    ((wordsOf tokens).head? = none ↔ tokens = []) := by
  rw [ofTokens_of_no_fault sound]
  cases words : wordsOf tokens with
  | cons name arguments =>
    refine ⟨rfl, nofun, ?_⟩
    rintro rfl
    cases words
  | nil =>
    have noWord := wordsOf_eq_nil_iff.1 words
    have noOperator : ∀ i, isOperatorAt tokens i = false := by
      intro i
      by_contra isOperator
      exact has ⟨⟨i, by simpa using isOperator⟩, noWord⟩
    obtain rfl := eq_nil_of_no_word noWord noOperator
    exact ⟨rfl, by simp⟩

end

/-- Reading tokens as a command, by the positions of its parts. An operator without a file is
reported with what stands in place of the file, the first one if there are several. Otherwise
operators without any word are reported, and apart from that the words make up the command in
order, with the last redirection of each stream. Every token is a word, an operator or a file,
and only one of these. -/
theorem ofTokens_positions (tokens : List Token) :
    ((∃ e, ofTokens tokens = .error e ∧ e ≠ .noCommand) ↔ ∃ i, isFaultAt tokens i) ∧
    (∀ i, isFaultAt tokens i → (∀ j < i, isFaultAt tokens j = false) →
      ∃ e, ofTokens tokens = .error e ∧
        let found := (tokens[i + 1]?.map (·.text)).getD "newline"
        e.message = s!"syntax error near unexpected token `{found}'") ∧
    ((∀ i, isFaultAt tokens i = false) →
      ((∃ e, ofTokens tokens = .error e ∧ e.message = "syntax error: missing command") ↔
        LacksCommand tokens) ∧
      (¬ LacksCommand tokens → ofTokens tokens = .ok
          { name := (wordsOf tokens).head?
            arguments := (wordsOf tokens).tail
            stdout := (redirectsOf tokens .out).getLast?
            stderr := (redirectsOf tokens .err).getLast? } ∧
        ((wordsOf tokens).head? = none ↔ tokens = []))) ∧
    ∀ i < tokens.length, (isWordAt tokens i).toNat + (isOperatorAt tokens i).toNat +
      (isTargetAt tokens i).toNat = 1 := by
  refine ⟨⟨fun ⟨e, refused, other⟩ => ?_, fun fault => ?_⟩, fun i fault first => ?_, fun sound => ?_,
    fun i inside => accounted inside⟩
  · by_contra none
    have sound : ∀ i, isFaultAt tokens i = false := by simpa using none
    by_cases lacks : LacksCommand tokens
    · rw [ofTokens_of_lacksCommand sound lacks] at refused
      cases refused
      exact other rfl
    · rw [(ofTokens_of_not_lacksCommand sound lacks).1] at refused
      cases refused
  · have first : ∀ j < Nat.find fault, isFaultAt tokens j = false :=
      fun j before => by simpa using Nat.find_min fault before
    refine ⟨_, ofTokens_of_isFaultAt (Nat.find_spec fault) first, ?_⟩
    unfold faultAt
    split <;> nofun
  · exact ⟨_, ofTokens_of_isFaultAt fault first, message_faultAt i⟩
  · refine ⟨⟨fun ⟨e, refused, _⟩ => ?_, fun lacks => ?_⟩, ofTokens_of_not_lacksCommand sound⟩
    · by_contra has
      rw [(ofTokens_of_not_lacksCommand sound has).1] at refused
      cases refused
    · exact ⟨_, ofTokens_of_lacksCommand sound lacks, rfl⟩

end LineShell.Command
