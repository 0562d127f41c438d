import LineShell.FileSystem.Edit

/-!
# Open files

A file that is open for writing has a place to write at and two buffers. Printed text is
gathered first (`text`) and passed on in portions of at least `textSize` bytes; what is
passed on is gathered again (`block`) and written in portions of more than `blockSize`
bytes. `flush` empties both buffers.

An action on an open file works on the file and the file system together, and keeps what was
done before a refusal (`FileAct`). A refused write leaves the bytes of `block` where they
are; those of `text` have left their buffer by then.
-/

namespace LineShell

/-- A file that is open for writing, under the path that it was opened by. -/
structure OpenFile where
  path : String
  node : NodeId
  append : Bool
  offset : Nat := 0
  text : Bytes := []
  block : Bytes := []
deriving DecidableEq, Repr

abbrev FileAct := EStateM Errno (OpenFile × FileSystem)

namespace OpenFile

/-- How much text is passed on at the latest. -/
def textSize : Nat := 8192

/-- How many bytes are gathered before they are written. -/
def blockSize : Nat := 4096

def write (bytes : Bytes) : FileAct Unit := fun (file, files) =>
  match files.writeTo file.node file.append file.offset bytes with
  | .ok (offset, files) => .ok () ({ file with offset }, files)
  | .error e => .error e (file, files)

def gather (bytes : Bytes) : FileAct Unit :=
  modify fun (file, files) => ({ file with block := file.block ++ bytes }, files)

/-- Writes the block. It is emptied only when the write was not refused. -/
def flushBlock : FileAct Unit := do
  write (← get).1.block
  modify fun (file, files) => ({ file with block := [] }, files)

/-- Passes bytes on. What does not fit into the block is preceded by the block, and what
does not fit into an empty block is written at once. -/
def writeBytes (bytes : Bytes) : FileAct Unit := do
  if (← get).1.block.length + bytes.length ≤ blockSize then gather bytes
  else
    flushBlock
    if bytes.length ≤ blockSize then gather bytes else write bytes

def flushText : FileAct Unit := do
  let text := (← get).1.text
  modify fun (file, files) => ({ file with text := [] }, files)
  writeBytes text

/-- Passes the gathered text on if it would be too much together with `more` bytes. -/
def makeRoom (more : Nat) : FileAct Unit := do
  if textSize < (← get).1.text.length + more then flushText else pure ()

/-- Passes the gathered text on if there is enough of it. -/
def passPortion : FileAct Unit := do
  if textSize ≤ (← get).1.text.length then flushText else pure ()

/-- Prints text, which is given as bytes. -/
def print (bytes : Bytes) : FileAct Unit := do
  makeRoom bytes.length
  modify fun (file, files) => ({ file with text := file.text ++ bytes }, files)
  passPortion

def flush : FileAct Unit := do
  flushText
  flushBlock

/-- Writes bytes after everything that was printed. -/
def printBytes (bytes : Bytes) : FileAct Unit := do
  flush
  writeBytes bytes
  flushBlock

/-- Ends the use of a file: what is still in the buffers is written if that is possible.
Gives the file system after it and the reason why something could not be written. A refused
flush is tried again, since its bytes are still in the block. -/
def close (file : OpenFile) (files : FileSystem) : FileSystem × Option Errno :=
  match flush (file, files) with
  | .ok () (_, files) => (files, none)
  | .error e state =>
    match flushBlock state with
    | .ok () (_, files) => (files, some e)
    | .error e (_, files) => (files, some e)

end OpenFile

end LineShell
