import Mathlib.Data.List.Basic
import LineShell.Proofs.Words.Superseded

/-!
# The order of words and redirections

Words and redirections are kept apart, so a redirection may stand before or after a word, and
redirections of different streams may stand in either order. All this is so in front of any tokens
at all: where they cannot be read, the same error is reported. It is carried over to any place of a
line that is not between an operator and its file (`ofTokens_append_congr`), since what has been
read of a line by then is only put in front of what is read next.

Main statement: `ofTokens_rearranged`.
-/

namespace LineShell.Command

variable {t t' target target' word : Token} {op op' : Operator}

namespace Draft

theorem redirect_word (op : Operator) (path text : String) (d : Draft) :
    (d.word text).redirect op path = (d.redirect op path).word text := by
  obtain ⟨channel, append⟩ := op
  cases channel <;> rfl

theorem redirect_redirect (apart : op.channel ≠ op'.channel) (path path' : String) (d : Draft) :
    (d.redirect op path).redirect op' path' = (d.redirect op' path').redirect op path := by
  obtain ⟨channel, append⟩ := op
  obtain ⟨channel', append'⟩ := op'
  cases channel with
  | out =>
    cases channel' with
    | out => exact absurd rfl apart
    | err => rfl
  | err =>
    cases channel' with
    | out => rfl
    | err => exact absurd rfl apart

/-! ## Neighbours -/

theorem ofTokens_word_redirection (isWord : word.operator? = none)
    (isOperator : t.operator? = some op) (isTarget : target.operator? = none)
    (after : List Token) :
    ofTokens (word :: t :: target :: after) = ofTokens (t :: target :: word :: after) := by
  rw [ofTokens_word isWord, ofTokens_operator isOperator isTarget,
    ofTokens_operator isOperator isTarget, ofTokens_word isWord]
  cases ofTokens after with
  | error e => rfl
  | ok d => exact congrArg Except.ok (redirect_word op target.text word.text d).symm

theorem ofTokens_two_redirections (isOperator : t.operator? = some op)
    (isTarget : target.operator? = none) (isOperator' : t'.operator? = some op')
    (isTarget' : target'.operator? = none) (apart : op.channel ≠ op'.channel)
    (after : List Token) :
    ofTokens (t :: target :: t' :: target' :: after) =
      ofTokens (t' :: target' :: t :: target :: after) := by
  rw [ofTokens_operator isOperator isTarget, ofTokens_operator isOperator' isTarget',
    ofTokens_operator isOperator' isTarget', ofTokens_operator isOperator isTarget]
  cases ofTokens after with
  | error e => rfl
  | ok d => exact congrArg Except.ok (redirect_redirect apart.symm target'.text target.text d)

/-! ## Any place of a line -/

/-- What is read is put in front of what comes after it, unless that begins with a file. -/
theorem ofTokens_append_congr {before after after' : List Token}
    (complete : ∀ t ∈ before.getLast?, t.operator? = none)
    (same : ofTokens after = ofTokens after') :
    ofTokens (before ++ after) = ofTokens (before ++ after') := by
  induction before using ofTokens.induct with
  | case1 => exact same
  | case2 first rest isWord ih =>
    have others : ∀ t ∈ rest.getLast?, t.operator? = none :=
      fun t last => complete t (List.mem_getLast?_cons last)
    rw [List.cons_append, List.cons_append, ofTokens_word isWord, ofTokens_word isWord, ih others]
  | case3 first op isOperator =>
    have isWord := complete first rfl
    simp [isWord] at isOperator
  | case4 first op isOperator target rest isOther =>
    simp [ofTokens, isOperator, isOther]
  | case5 first op isOperator target rest isTarget ih =>
    have isTarget : target.operator? = none := by simpa using isTarget
    have others : ∀ t ∈ rest.getLast?, t.operator? = none :=
      fun t last => complete t (List.mem_getLast?_cons (List.mem_getLast?_cons last))
    simp only [List.cons_append]
    rw [ofTokens_operator isOperator isTarget, ofTokens_operator isOperator isTarget, ih others]

end Draft

theorem ofTokens_append_congr {before after after' : List Token}
    (complete : ∀ t ∈ before.getLast?, t.operator? = none)
    (same : Draft.ofTokens after = Draft.ofTokens after') :
    ofTokens (before ++ after) = ofTokens (before ++ after') := by
  rw [ofTokens, Draft.ofTokens_append_congr complete same]
  rfl

/-- Where the tokens before do not end in an operator, a redirection may be moved over a word and
over a redirection of the other stream, and may be left out before another one of its own stream:
whatever tokens follow, the same command is read or the same error is reported. -/
theorem ofTokens_rearranged {before : List Token}
    (complete : ∀ t ∈ before.getLast?, t.operator? = none)
    (isOperator : t.operator? = some op) (isTarget : target.operator? = none)
    (isWord : word.operator? = none) (after : List Token) :
    ofTokens (before ++ [word, t, target] ++ after) =
      ofTokens (before ++ [t, target, word] ++ after) ∧
    (∀ t' op' target', t'.operator? = some op' → target'.operator? = none →
      op.channel ≠ op'.channel →
        ofTokens (before ++ [t, target, t', target'] ++ after) =
          ofTokens (before ++ [t', target', t, target] ++ after)) ∧
    ((∃ later ∈ after, ∃ op', later.operator? = some op' ∧ op'.channel = op.channel) →
      ofTokens (before ++ [t, target] ++ after) = ofTokens (before ++ after)) := by
  simp only [List.append_assoc]
  refine ⟨?_, fun t' op' target' isOperator' isTarget' apart => ?_, fun later => ?_⟩
  · exact ofTokens_append_congr complete
      (Draft.ofTokens_word_redirection isWord isOperator isTarget after)
  · exact ofTokens_append_congr complete
      (Draft.ofTokens_two_redirections isOperator isTarget isOperator' isTarget' apart after)
  · exact ofTokens_append_congr complete (Draft.ofTokens_dropped isOperator isTarget later)

/-- In `echo > f '>' >> g` the quoted word may come first, and the file `f` may be left out. -/
theorem ofTokens_rearranged_quoted :
    let echo : Token := ⟨"echo", false⟩
    let quoted : Token := ⟨">", true⟩
    let truncates : Token := ⟨">", false⟩
    let f : Token := ⟨"f", false⟩
    let later : List Token := [⟨">>", false⟩, ⟨"g", false⟩]
    (∀ t ∈ [echo].getLast?, t.operator? = none) ∧ truncates.operator? = some ⟨.out, false⟩ ∧
      f.operator? = none ∧ quoted.operator? = none ∧
      ofTokens ([echo] ++ [quoted, truncates, f] ++ later) =
        ofTokens ([echo] ++ [truncates, f, quoted] ++ later) ∧
      ofTokens ([echo] ++ [truncates, f] ++ later) = ofTokens ([echo] ++ later) := by
  intro echo quoted truncates f later
  have complete : ∀ t ∈ [echo].getLast?, t.operator? = none := by decide
  have isOperator : truncates.operator? = some ⟨.out, false⟩ := by decide
  have isTarget : f.operator? = none := by decide
  have isWord : quoted.operator? = none := by decide
  obtain ⟨moved, _, dropped⟩ := ofTokens_rearranged complete isOperator isTarget isWord later
  exact ⟨complete, isOperator, isTarget, isWord, moved,
    dropped ⟨⟨">>", false⟩, by decide, ⟨.out, true⟩, by decide, rfl⟩⟩

end LineShell.Command
