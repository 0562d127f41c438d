import LineShell.Text.Quoted

/-!
# Words of a line

`tokenize` cuts a line into words at blanks. A part of a word between two quotes of one kind
is taken literally, without the quotes; parts that touch make one word; a quote that is not
closed reaches to the end of the line. A token keeps whether any part of it was quoted,
since a quoted word never is an operator.

`scan` is the machine: it is structural in the characters and knows the word at hand.
`openQuote` tells which quote a line leaves open.
-/

namespace LineShell

structure Token where
  text : String
  quoted : Bool := false
deriving DecidableEq, Repr

namespace Token

/-- How a token is shown in a record of the log. The text stands there as it is. -/
def describe (t : Token) : String :=
  let quoted := if t.quoted then "True" else "False"
  s!"ShellToken('{t.text}', quoted={quoted})"

def isBlank (c : Char) : Bool :=
  c = ' ' || c = '\t' || c = '\n' || c = '\r'

def isQuote (c : Char) : Bool :=
  c = Text.apostrophe || c = Text.doubleQuote

/-- Where the machine stands. The characters of the word at hand are kept last first. -/
inductive Scan
  | between
  | word (text : List Char) (quoted : Bool)
  | quotation (quote : Char) (text : List Char)
deriving DecidableEq, Repr

namespace Scan

/-- The characters of the word at hand, last first. -/
def text : Scan → List Char
  | between => []
  | word text _ => text
  | quotation _ text => text

/-- Whether some part of the word at hand was quoted. -/
def isQuoted : Scan → Bool
  | between => false
  | word _ quoted => quoted
  | quotation _ _ => true

/-- The word at hand, when nothing more comes. An open quotation ends there too. -/
def finish : Scan → List Token
  | between => []
  | s => [{ text := String.ofList s.text.reverse, quoted := s.isQuoted }]

/-- The machine after one character that does not end a word. -/
def step (s : Scan) (c : Char) : Scan :=
  match s with
  | quotation q text => if c = q then word text true else quotation q (c :: text)
  | s =>
    if isQuote c then quotation c s.text
    else word (c :: s.text) s.isQuoted

def endsAt (s : Scan) (c : Char) : Bool :=
  match s with
  | quotation _ _ => false
  | _ => isBlank c

end Scan

/-- The words that are complete at the end of `line`, from where the machine stands. -/
def scan (s : Scan) : List Char → List Token
  | [] => s.finish
  | c :: line => if s.endsAt c then s.finish ++ scan .between line else scan (s.step c) line

/-- Where the machine stands after `line`. -/
def scanEnd (s : Scan) : List Char → Scan
  | [] => s
  | c :: line => if s.endsAt c then scanEnd .between line else scanEnd (s.step c) line

def tokenize (line : String) : List Token :=
  scan .between line.toList

/-- The quote that a line opens and does not close. -/
def openQuote (line : String) : Option Char :=
  match scanEnd .between line.toList with
  | .quotation q _ => some q
  | _ => none

end Token

end LineShell
