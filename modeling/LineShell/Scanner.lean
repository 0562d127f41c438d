import LineShell.Token

/-!
# A scanner for many lines

A scanner keeps what it has read of a line: the words that are complete, the text of the word
at hand, and whether a quotation is open. It forgets all of it before and after a line, so one
scanner can be used for one line after the other.
-/

namespace LineShell

structure Scanner where
  /-- The words that are complete, in order. -/
  tokens : List Token := []
  /-- The text of the word at hand, which may be empty. -/
  text : String := ""
  inWord : Bool := false
  /-- The quote that is still to be closed. -/
  quote : Option Char := none
  wasQuoted : Bool := false
deriving DecidableEq, Repr

namespace Scanner

def reset (_ : Scanner) : Scanner := {}

/-- Completes the word at hand, if there is one. -/
def endWord (s : Scanner) : Scanner :=
  if s.inWord then { tokens := s.tokens ++ [{ text := s.text, quoted := s.wasQuoted }] }
  else { tokens := s.tokens }

def read (s : Scanner) (c : Char) : Scanner :=
  match s.quote with
  | some quote =>
    if c = quote then { s with quote := none } else { s with text := s.text.push c }
  | none =>
    if Token.isQuote c then { s with quote := some c, inWord := true, wasQuoted := true }
    else if Token.isBlank c then s.endWord
    else { s with text := s.text.push c, inWord := true }

/-- The words of a line and the scanner after it. -/
def tokenize (s : Scanner) (line : String) : List Token × Scanner :=
  let s := (line.toList.foldl read s.reset).endWord
  (s.tokens, s.reset)

/-- The words of lines that are read one after the other. -/
def tokenizeAll (s : Scanner) : List String → List (List Token) × Scanner
  | [] => ([], s)
  | line :: lines =>
    let (tokens, s) := s.tokenize line
    let (others, s) := s.tokenizeAll lines
    (tokens :: others, s)

end Scanner

end LineShell
