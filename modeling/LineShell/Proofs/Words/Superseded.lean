import LineShell.Command

/-!
# Redirections that do not count

Of several redirections of one stream the last counts, so a line without one of the others asks
for the same command.

Main statement: `ofTokens_superseded`.
-/

namespace LineShell.Command

namespace Draft

/-- The redirection of a stream that counts. -/
def redirection (d : Draft) : Channel → Option Redirect
  | .out => d.stdout
  | .err => d.stderr

@[simp] theorem redirection_word (text : String) (d : Draft) :
    (d.word text).redirection = d.redirection := by
  funext c
  cases c <;> rfl

theorem redirection_redirect (op : Operator) (path : String) (d : Draft) (c : Channel) :
    (d.redirect op path).redirection c =
      if op.channel = c then (d.redirection c).or (some ⟨path, op.append⟩)
      else d.redirection c := by
  obtain ⟨channel, append⟩ := op
  cases channel <;> cases c <;> rfl

/-- In front of another redirection of its stream a redirection changes nothing. -/
theorem redirect_of_isSome {op : Operator} {d : Draft} (later : (d.redirection op.channel).isSome)
    (path : String) : d.redirect op path = d := by
  obtain ⟨channel, append⟩ := op
  obtain ⟨r, some_⟩ := Option.isSome_iff_exists.1 later
  obtain ⟨words, stdout, stderr⟩ := d
  cases channel with
  | out =>
    obtain rfl : stdout = some r := some_
    rfl
  | err =>
    obtain rfl : stderr = some r := some_
    rfl

theorem ofTokens_word {t : Token} (isWord : t.operator? = none) (rest : List Token) :
    ofTokens (t :: rest) = (ofTokens rest).map (word t.text) := by
  rw [ofTokens]
  simp only [isWord]

theorem ofTokens_operator {t : Token} {op : Operator} (isOperator : t.operator? = some op)
    {target : Token} (isTarget : target.operator? = none) (rest : List Token) :
    ofTokens (t :: target :: rest) = (ofTokens rest).map (redirect op target.text) := by
  rw [ofTokens]
  simp only [isOperator, isTarget, Option.isSome_none, Bool.false_eq_true, if_false]

/-- What a line that can be read begins with. -/
theorem ofTokens_cases {t : Token} {rest : List Token} {d : Draft}
    (reads : ofTokens (t :: rest) = .ok d) :
    (t.operator? = none ∧ ∃ d', ofTokens rest = .ok d' ∧ d = d'.word t.text) ∨
    ∃ op target others d', t.operator? = some op ∧ target.operator? = none ∧
      rest = target :: others ∧ ofTokens others = .ok d' ∧ d = d'.redirect op target.text := by
  cases isOperator : t.operator? with
  | none =>
    rw [ofTokens_word isOperator] at reads
    cases read : ofTokens rest with
    | error e => simp [read, Except.map] at reads
    | ok d' => exact .inl ⟨rfl, d', rfl, by simpa [read, Except.map, eq_comm] using reads⟩
  | some op =>
    cases rest with
    | nil => simp [ofTokens, isOperator] at reads
    | cons target others =>
      cases isTarget : target.operator? with
      | some op' => simp [ofTokens, isOperator, isTarget] at reads
      | none =>
        rw [ofTokens_operator isOperator isTarget] at reads
        cases read : ofTokens others with
        | error e => simp [read, Except.map] at reads
        | ok d' =>
          exact .inr ⟨op, target, others, d', rfl, isTarget, rfl, read,
            by simpa [read, Except.map, eq_comm] using reads⟩

/-- An operator on a line that can be read begins a redirection of its stream. -/
theorem isSome_of_operator {tokens : List Token} {d : Draft} (reads : ofTokens tokens = .ok d)
    {t : Token} (listed : t ∈ tokens) {op : Operator} (isOperator : t.operator? = some op) :
    (d.redirection op.channel).isSome := by
  induction tokens using ofTokens.induct generalizing d with
  | case1 => cases listed
  | case2 first rest isWord ih =>
    rcases ofTokens_cases reads with ⟨_, d', read, rfl⟩ | ⟨_, _, _, _, other, _⟩
    · rw [redirection_word]
      rcases List.mem_cons.1 listed with rfl | listed
      · simp [isWord] at isOperator
      · exact ih read listed
    · simp [isWord] at other
  | case3 first op' isOperator' => simp [ofTokens, isOperator'] at reads
  | case4 first op' isOperator' target rest isOther =>
    simp [ofTokens, isOperator', isOther] at reads
  | case5 first op' isOperator' target rest isTarget ih =>
    rcases ofTokens_cases reads with ⟨isWord, _⟩ | ⟨_, _, _, d', same, _, ⟨⟩, read, rfl⟩
    · simp [isOperator'] at isWord
    · rw [isOperator'] at same
      cases same
      rw [redirection_redirect]
      rcases List.mem_cons.1 listed with rfl | listed
      · rw [isOperator'] at isOperator
        cases isOperator
        simp
      rcases List.mem_cons.1 listed with rfl | listed
      · simp [isOperator] at isTarget
      · have later := ih read listed
        split
        · simp
        · exact later

/-- Before a later redirection of its stream, a redirection can be left out even where what comes
after it cannot be read. -/
theorem ofTokens_dropped {t target : Token} {op : Operator} (isOperator : t.operator? = some op)
    (isTarget : target.operator? = none) {after : List Token}
    (later : ∃ t' ∈ after, ∃ op', t'.operator? = some op' ∧ op'.channel = op.channel) :
    ofTokens (t :: target :: after) = ofTokens after := by
  rw [ofTokens_operator isOperator isTarget]
  cases read : ofTokens after with
  | error e => rfl
  | ok d =>
    obtain ⟨t', listed, op', isOperator', channel⟩ := later
    have counts := isSome_of_operator read listed isOperator'
    rw [channel] at counts
    exact congrArg Except.ok (redirect_of_isSome counts target.text)

theorem ofTokens_superseded {before after : List Token} {t target : Token} {op : Operator}
    {d : Draft} (isOperator : t.operator? = some op)
    (later : ∃ t' ∈ after, ∃ op', t'.operator? = some op' ∧ op'.channel = op.channel)
    (reads : ofTokens (before ++ t :: target :: after) = .ok d) :
    ofTokens (before ++ after) = .ok d := by
  induction before using ofTokens.induct generalizing d with
  | case1 =>
    rcases ofTokens_cases reads with ⟨isWord, _⟩ | ⟨_, _, _, _, _, isTarget, ⟨⟩, _⟩
    · simp [isOperator] at isWord
    · exact (ofTokens_dropped isOperator isTarget later).symm.trans reads
  | case2 first rest isWord ih =>
    rcases ofTokens_cases reads with ⟨_, d', read, rfl⟩ | ⟨_, _, _, _, other, _⟩
    · rw [List.cons_append, ofTokens_word isWord, ih read]
      rfl
    · simp [isWord] at other
  | case3 first op' isOperator' =>
    -- the operator would be the file of the one before it
    simp [ofTokens, isOperator', isOperator] at reads
  | case4 first op' isOperator' target' rest isOther =>
    simp [ofTokens, isOperator', isOther] at reads
  | case5 first op' isOperator' target' rest isTarget ih =>
    rcases ofTokens_cases reads with ⟨isWord, _⟩ | ⟨_, _, _, d', same, isTarget', ⟨⟩, read, rfl⟩
    · simp [isOperator'] at isWord
    · rw [isOperator'] at same
      cases same
      rw [List.cons_append, List.cons_append, ofTokens_operator isOperator' isTarget', ih read]
      rfl

end Draft

/-- A redirection that a later one of the same stream takes the place of can be left out. -/
theorem ofTokens_superseded {before after : List Token} {t target : Token} {op : Operator}
    {c : Command} (isOperator : t.operator? = some op)
    (later : ∃ t' ∈ after, ∃ op', t'.operator? = some op' ∧ op'.channel = op.channel)
    (reads : ofTokens (before ++ t :: target :: after) = .ok c) :
    ofTokens (before ++ after) = .ok c := by
  unfold ofTokens at reads ⊢
  cases read : Draft.ofTokens (before ++ t :: target :: after) with
  | error e => simp [read, Except.bind] at reads
  | ok d =>
    rw [read] at reads
    rwa [Draft.ofTokens_superseded isOperator later read]

end LineShell.Command
