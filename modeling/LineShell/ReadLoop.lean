import LineShell.Execution
import LineShell.Text.Space

/-!
# Reading lines

The shell reads a line, carries it out and reads again, until `exit` is used or the input
ends. `Act.runLine` is the work on one line: whatever goes wrong is reported and becomes a
status. `trace` gives every read with the world after it; `readAll` is the world at the end.
Others may touch the world while the shell waits for a line, which is what `pause` stands for.
-/

namespace LineShell

namespace Act

def noteOpenQuote (line : String) : Act Unit :=
  match Token.openQuote line with
  | some q => note .debug .words s!"unterminated {q} quote in {Text.quote line}"
  | none => pure ()

/-- The command of a line, with records of how it was cut. -/
def parseLine (line : String) : Act (Except ParseError Command) := do
  noteOpenQuote line
  let tokens := Token.tokenize line
  note .debug .reading s!"tokens: {Text.quoteList (tokens.map Token.describe)}"
  return (Command.ofTokens tokens).map Command.meant

def syntaxStatus : Int := 2

/-- Says that a line could not be carried out to its end. -/
def reportFault (line : String) (fault : Fault) : Act Unit := do
  note .error .reading s!"unexpected error running {Text.quote line}"
  report s!"minishell: {fault.message}"
  remember fun s => { s with status := failureStatus }

/-- Carries out the command of a line. What goes wrong beyond what the command itself
reports is reported here. -/
def runCommand (line : String) (command : Command) : Act Unit :=
  tryCatch (discard (execute command)) (reportFault line)

/-- Carries out what a line asks for. A line of white space asks for nothing. -/
def runLine (line : String) : Act Unit := do
  if Text.isVoid line then pure ()
  else
    match ← parseLine line with
    | .error e =>
      report s!"minishell: {e.message}"
      remember fun s => { s with status := syntaxStatus }
    | .ok command => runCommand line command

end Act

/-- What a reader can give instead of the end of the input. -/
inductive Item
  | line (text : String)
  | interrupt
deriving DecidableEq, Repr

structure Reader where
  /-- The prompt that the shell gives the reader at every read. -/
  prompt : String
  shows : Bool
deriving DecidableEq, Repr

/-- What a reader does before anything else: it writes its prompt if it shows it. -/
def Reader.showPrompt (reader : Reader) : Act Unit := do
  if reader.shows then do
    Act.print .out reader.prompt
    Act.flush .out
  else pure ()

namespace Act

/-- What the shell does after a read, which gave an item or met the end of the input. After
the end the shell stops with the status of the last command. -/
def respond : Option Item → Act Unit
  | some (.line text) => runLine text
  | some .interrupt => print .out "\n"
  | none => do
    print .out "\n"
    remember fun s => { s with exit := some s.status }

/-- One read and what the shell does after it. A reader that shows its prompt writes it to
the standard output first. -/
def readStep (reader : Reader) (item : Option Item) : Act Unit := do
  reader.showPrompt
  respond item

end Act

/-- One read: the prompt that the reader was given, the item that it gave, or nothing at the
end of the input, and the world after the shell has responded. -/
structure Reading where
  prompt : String
  item : Option Item
  after : World

namespace World

def reading (reader : Reader) (w : World) (item : Option Item) : Reading :=
  { prompt := reader.prompt, item, after := (Act.readStep reader item).run w }

/-- The reads, as long as the shell is not stopped. After each of them the world goes through
`pause`. -/
def trace (reader : Reader) (pause : World → World) (w : World) : List Item → List Reading
  | [] => if w.session.isStopped then [] else [w.reading reader none]
  | item :: items =>
    if w.session.isStopped then []
    else
      let read := w.reading reader (some item)
      read :: trace reader pause (pause read.after) items

def readAll (reader : Reader) (pause : World → World) (w : World) (items : List Item) : World :=
  ((w.trace reader pause items).getLast?.map (·.after)).getD w

def unread (reader : Reader) (pause : World → World) (w : World) (items : List Item) : Nat :=
  items.length - (w.trace reader pause items).length

end World

end LineShell
