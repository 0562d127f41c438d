import LineShell.Proofs.Words.Spelling
import LineShell.Proofs.World

/-!
# Writing a command as a line

`Command.render` writes a command with a name so that the shell can read it: every word as
fragments between quotes and the redirections with their operators after the arguments.

Main statement: `parse_render`, reading such a line gives the command back, whatever its
texts are. A quoted word never is an operator, so the parser meets operators only where
`render` put them; what it makes of the words and redirections is computed from the end of
the line, as the parser itself does.
-/

namespace LineShell

/-! ## The tokens of a command -/

/-- The token of a word that is to be taken as it is. -/
def Token.literally (text : String) : Token :=
  { text, quoted := true }

/-- How an operator is spelled. -/
def Operator.text (op : Operator) : String :=
  match op.channel with
  | .out => if op.append then ">>" else ">"
  | .err => if op.append then "2>>" else "2>"

namespace Command

/-- The operator of a redirection and its file. -/
def redirectTokens (c : Channel) : Option Redirect → List Token
  | none => []
  | some r => [{ text := Operator.text ⟨c, r.append⟩ }, Token.literally r.path]

/-- The tokens of a command: its words, then the files of its streams. -/
def tokens (c : Command) : List Token :=
  (c.name.toList ++ c.arguments).map Token.literally
    ++ redirectTokens .out c.stdout ++ redirectTokens .err c.stderr

/-- A command as a line. -/
def render (c : Command) : String :=
  Token.line c.tokens

/-! ## Reading the tokens -/

theorem ofText?_text (op : Operator) : Operator.ofText? op.text = some op := by
  obtain ⟨channel, append⟩ := op
  cases channel <;> cases append <;> rfl

theorem isSpellable_literally (text : String) : (Token.literally text).IsSpellable := nofun

theorem isSpellable_operator (op : Operator) : Token.IsSpellable { text := op.text } := by
  obtain ⟨channel, append⟩ := op
  intro _
  have arrow : Token.isBare '>' = true := rfl
  have number : Token.isBare '2' = true := rfl
  cases channel <;> cases append <;> simp [Operator.text, arrow, number]

theorem isSpellable_of_mem_tokens {c : Command} {t : Token} (h : t ∈ c.tokens) :
    t.IsSpellable := by
  have ofRedirect : ∀ channel redirect, t ∈ redirectTokens channel redirect → t.IsSpellable := by
    intro channel redirect member
    cases redirect with
    | none => cases member
    | some r =>
      simp only [redirectTokens, List.mem_cons, List.not_mem_nil, or_false] at member
      rcases member with rfl | rfl
      · exact isSpellable_operator _
      · exact isSpellable_literally _
  simp only [tokens, List.mem_append, List.mem_map] at h
  rcases h with (⟨text, _, rfl⟩ | ofOut) | ofErr
  · exact isSpellable_literally text
  · exact ofRedirect _ _ ofOut
  · exact ofRedirect _ _ ofErr

namespace Draft

theorem ofTokens_words (words : List String) {rest : List Token} {d : Draft}
    (h : ofTokens rest = .ok d) :
    ofTokens (words.map Token.literally ++ rest) = .ok { d with words := words ++ d.words } := by
  induction words with
  | nil => exact h
  | cons text words ih =>
    have isWord : (Token.literally text).operator? = none := rfl
    simp only [List.map_cons, List.cons_append, ofTokens, isWord, ih]
    rfl

/-- Where a stream has no redirection further on, the redirection in front is the one that
counts. -/
theorem ofTokens_redirect (c : Channel) (r : Option Redirect) {rest : List Token} {d : Draft}
    (h : ofTokens rest = .ok d) :
    ofTokens (redirectTokens c r ++ rest) = .ok
      (match c with
      | .out => { d with stdout := d.stdout.or r }
      | .err => { d with stderr := d.stderr.or r }) := by
  cases r with
  | none => cases c <;> simp [redirectTokens, h]
  | some r =>
    have isOperator : Token.operator? { text := Operator.text ⟨c, r.append⟩ } =
        some ⟨c, r.append⟩ := ofText?_text ⟨c, r.append⟩
    have isWord : (Token.literally r.path).operator? = none := rfl
    simp only [redirectTokens, List.cons_append, List.nil_append, ofTokens, isOperator, isWord, h]
    cases c <;> rfl

end Draft

/-- The tokens of a command with a name are read as that command. -/
theorem ofTokens_tokens (name : String) (arguments : List String)
    (stdout stderr : Option Redirect) :
    let c : Command := { name := some name, arguments, stdout, stderr }
    ofTokens c.tokens = .ok c := by
  intro c
  -- the draft is put together from the end of the line: errors, output, then the words
  have ofErr : Draft.ofTokens (redirectTokens .err stderr) = .ok { stderr } := by
    have nothing : Draft.ofTokens [] = .ok {} := rfl
    simpa using Draft.ofTokens_redirect .err stderr nothing
  have ofFiles : Draft.ofTokens (redirectTokens .out stdout ++ redirectTokens .err stderr) =
      .ok { stdout, stderr } := by
    simpa using Draft.ofTokens_redirect .out stdout ofErr
  have ofAll : Draft.ofTokens c.tokens = .ok { words := name :: arguments, stdout, stderr } := by
    simpa [tokens, c] using Draft.ofTokens_words (name :: arguments) ofFiles
  rw [ofTokens, ofAll]
  rfl

theorem tokenize_render (c : Command) : Token.tokenize c.render = c.tokens :=
  Token.tokenize_line fun _ h => isSpellable_of_mem_tokens h

end Command

/-! ## Reading a line in the shell -/

/-- Quoting is complete: a command that is written as a line is read as it was, also where
its texts are empty, hold blanks and quotes or look like operators. In the shell the same
holds, but for the word that stands for `exit` when it is alone. -/
theorem Command.parse_render (name : String) (arguments : List String)
    (stdout stderr : Option Redirect) :
    let c : Command := { name := some name, arguments, stdout, stderr }
    Command.ofLine c.render = .ok c ∧
    ∀ w : World, ∃ after,
      Act.parseLine c.render w =
        .ok (.ok (if name = "0" ∧ arguments = [] then { c with name := some "exit" } else c)) after ∧
      after.session = w.session ∧ after.files = w.files := by
  intro c
  have read : ofTokens (Token.tokenize c.render) = .ok c := by
    rw [tokenize_render]
    exact ofTokens_tokens name arguments stdout stderr
  refine ⟨read, fun w => ?_⟩
  obtain ⟨after, parsed, session, files, _⟩ := Act.parseLine_apply c.render w
  refine ⟨after, ?_, session, files⟩
  rw [parsed, read]
  simp [Except.map, meant, exitSynonym, c]

end LineShell
