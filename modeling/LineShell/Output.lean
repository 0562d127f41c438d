import LineShell.Highlight
import LineShell.World

/-!
# Writing to the streams of a command

A command writes to its standard output and standard error without knowing whether they are
terminals or files. `print` leaves text in a buffer, `flush` empties the buffer,
`printBytes` passes bytes on as they are and `report` writes one line about an error at
once.
-/

namespace LineShell.Act

/-- Does something with the file that stands in for a stream. -/
def onFile (c : Channel) (file : OpenFile) (act : FileAct Unit) : Act Unit := fun w =>
  match act (file, w.files) with
  | .ok () (file, files) => .ok () { w with files, redirects := w.redirects.set c (some file) }
  | .error e (file, files) =>
    .error (.refused e) { w with files, redirects := w.redirects.set c (some file) }

def print (c : Channel) (text : String) : Act Unit := do
  match (← get).redirects.get c with
  | some file => onFile c file (OpenFile.print (Utf8.encode text))
  | none => modify fun w => w.onTerminal c (·.print (Utf8.encode text))

def flush (c : Channel) : Act Unit := do
  match (← get).redirects.get c with
  | some file => onFile c file OpenFile.flush
  | none => modify fun w => w.onTerminal c (·.flush)

def printLine (c : Channel) (text : String) : Act Unit := do
  print c text
  print c "\n"

/-- Writes bytes at once. Where only characters can be shown, the bytes are read as text
first. -/
def printBytes (c : Channel) (bytes : Bytes) : Act Unit := do
  match (← get).redirects.get c with
  | some file => onFile c file (OpenFile.printBytes bytes)
  | none =>
    modify fun w =>
      let shown := if w.console.textOnly then Utf8.encode (Utf8.decode bytes) else bytes
      w.onTerminal c fun t => (t.print shown).flush

/-- Whether what a command writes to a stream is shown on a terminal. -/
def showsOnTerminal (w : World) (c : Channel) : Bool :=
  (w.redirects.get c).isNone && w.console.isTerminal

/-- Writes one line about an error, highlighted where that is asked for. -/
def report (message : String) : Act Unit := do
  let w ← get
  printLine .err
    (Highlight.highlight message "RED" (showsOnTerminal w .err) w.console.colors)
  flush .err

end LineShell.Act
