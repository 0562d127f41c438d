import LineShell.Token

/-!
# Commands

A command is what a line asks for: a name, arguments, and files that take the place of the
standard output and the standard error. `Command.ofTokens` reads the words of a line: an
operator takes the word after it as a file, the first word that is left is the name and the
others are the arguments. Of several redirections of one stream the last counts.

`Command.describe` writes a command with all its texts quoted.
-/

namespace LineShell

/-- A file to write to: from its end (`append`) or in place of what it holds. -/
structure Redirect where
  path : String
  append : Bool := false
deriving DecidableEq, Repr

/-- A command line as it was read. A blank line has no name. -/
structure Command where
  name : Option String
  arguments : List String := []
  stdout : Option Redirect := none
  stderr : Option Redirect := none
deriving DecidableEq, Repr

inductive Channel
  | out
  | err
deriving DecidableEq, Repr

structure Operator where
  channel : Channel
  append : Bool
deriving DecidableEq, Repr

def Operator.ofText? (text : String) : Option Operator :=
  match text with
  | ">" | "1>" => some ⟨.out, false⟩
  | ">>" | "1>>" => some ⟨.out, true⟩
  | "2>" => some ⟨.err, false⟩
  | "2>>" => some ⟨.err, true⟩
  | _ => none

/-- The operator that a token is; a quoted token is a word whatever it spells. -/
def Token.operator? (t : Token) : Option Operator :=
  if t.quoted then none else Operator.ofText? t.text

inductive ParseError
  /-- The line ends where the file of a redirection should stand. -/
  | endOfLine
  /-- An operator stands where the file of a redirection should stand. -/
  | operator (text : String)
  /-- There are redirections and nothing that they are for. -/
  | noCommand
deriving DecidableEq, Repr

def ParseError.message : ParseError → String
  | .endOfLine => "syntax error near unexpected token `newline'"
  | .operator text => s!"syntax error near unexpected token `{text}'"
  | .noCommand => "syntax error: missing command"

namespace Command

/-- What has been read of a command: its words and its redirections. -/
structure Draft where
  words : List String := []
  stdout : Option Redirect := none
  stderr : Option Redirect := none
deriving DecidableEq, Repr

namespace Draft

def word (text : String) (d : Draft) : Draft :=
  { d with words := text :: d.words }

/-- A redirection in front, which counts only if no later one is for the same stream. -/
def redirect (op : Operator) (path : String) (d : Draft) : Draft :=
  match op.channel with
  | .out => { d with stdout := d.stdout.or (some ⟨path, op.append⟩) }
  | .err => { d with stderr := d.stderr.or (some ⟨path, op.append⟩) }

def command (d : Draft) : Except ParseError Command :=
  match d.words with
  | name :: arguments => .ok { name, arguments, stdout := d.stdout, stderr := d.stderr }
  | [] =>
    if d.stdout.isSome || d.stderr.isSome then .error .noCommand else .ok { name := none }

/-- Tells words and redirections apart. The first operator without a file is the one
reported, since it is looked at before what follows. -/
def ofTokens : List Token → Except ParseError Draft
  | [] => .ok {}
  | t :: rest =>
    match t.operator? with
    | none => (ofTokens rest).map (word t.text)
    | some op =>
      match rest with
      | [] => .error .endOfLine
      | target :: rest =>
        if target.operator?.isSome then .error (.operator target.text)
        else (ofTokens rest).map (redirect op target.text)

end Draft

def ofTokens (tokens : List Token) : Except ParseError Command :=
  (Draft.ofTokens tokens).bind Draft.command

def ofLine (line : String) : Except ParseError Command :=
  ofTokens (Token.tokenize line)

/-- The word that stands for the command `exit` when it is alone. -/
def exitSynonym : String := "0"

/-- The command that is meant, where a synonym was used. -/
def meant (c : Command) : Command :=
  if c.name = some exitSynonym ∧ c.arguments = [] then { c with name := some "exit" } else c

def redirect (c : Command) : Channel → Option Redirect
  | .out => c.stdout
  | .err => c.stderr

/-! ## The written form -/

def describeRedirect : Option Redirect → String
  | none => "None"
  | some r =>
    let append := if r.append then "True" else "False"
    s!"Redirect(path={Text.quote r.path}, append={append})"

/-- How a command is written, with every text in it quoted. -/
def describe (c : Command) : String :=
  let name := match c.name with
    | none => "None"
    | some name => Text.quote name
  s!"ParsedCommand({name}, {Text.quoteList c.arguments}, "
    ++ s!"stdout={describeRedirect c.stdout}, stderr={describeRedirect c.stderr})"

end Command

end LineShell
