import LineShell.Command
import LineShell.Log
import LineShell.OpenFile

/-!
# The shell and what is around it

`World` is everything that an action of the shell can see or change: the tree of files, the
session (what the shell itself remembers), its two terminals, the files that stand in for
them while a command runs, and the log. An `Act` is an action that may stop with a fault and
then leaves the world as it is at that moment.

A terminal shows what was written to it and then what still waits in its buffer
(`Terminal.shown`), so printing and flushing need no care as long as nobody else writes to
the same terminal.
-/

namespace LineShell

abbrev Environment := List (String × String)

/-- What the shell remembers from one command to the next. -/
structure Session where
  /-- The directory that relative paths are seen from, as it was given or as `cd` set it. -/
  cwd : String
  env : Environment
  status : Int := 0
  /-- The status to end with, once `exit` was used or the input ended. -/
  exit : Option Int := none
deriving DecidableEq, Repr

namespace Session

def isStopped (s : Session) : Bool :=
  s.exit.isSome

/-- The canonical path of what the user calls `path`. -/
def resolve (s : Session) (path : String) : String :=
  (Path.resolve s.cwd path).toString

def home (s : Session) : Option String :=
  s.env.lookup "HOME"

end Session

/-! ## Streams -/

structure Both (α : Type) where
  out : α
  err : α
deriving DecidableEq, Repr

namespace Both

variable {α : Type}

def get (b : Both α) : Channel → α
  | .out => b.out
  | .err => b.err

def set (b : Both α) (c : Channel) (a : α) : Both α :=
  match c with
  | .out => { b with out := a }
  | .err => { b with err := a }

@[simp] theorem get_set_self (b : Both α) (c : Channel) (a : α) : (b.set c a).get c = a := by
  cases c <;> rfl

@[simp] theorem get_set_of_ne (b : Both α) {c d : Channel} (a : α) (h : d ≠ c) :
    (b.set c a).get d = b.get d := by
  cases c <;> cases d <;> first | rfl | exact absurd rfl h

end Both

/-- What a stream of the shell has been given. Bytes are kept last first, so that there is no
need to go through the old ones where new ones are added. -/
structure Terminal where
  written : Bytes := []
  pending : Bytes := []
deriving DecidableEq, Repr

namespace Terminal

/-- Everything that was printed, last first. -/
def printed (t : Terminal) : Bytes :=
  t.pending ++ t.written

def shown (t : Terminal) : Bytes :=
  t.printed.reverse

def print (t : Terminal) (bytes : Bytes) : Terminal :=
  { t with pending := bytes.reverse ++ t.pending }

def flush (t : Terminal) : Terminal :=
  ⟨t.printed, []⟩

/-- Writes bytes past the buffer. -/
def write (t : Terminal) (bytes : Bytes) : Terminal :=
  { t with written := bytes.reverse ++ t.written }

@[simp] theorem shown_print (t : Terminal) (bytes : Bytes) :
    (t.print bytes).shown = t.shown ++ bytes := by
  simp [shown, printed, print]

@[simp] theorem shown_flush (t : Terminal) : t.flush.shown = t.shown := by
  simp [shown, printed, flush]

end Terminal

structure Console where
  /-- Whether errors are to be highlighted where they are shown on a terminal. -/
  colors : Bool := false
  /-- Whether the streams of the shell are terminals. -/
  isTerminal : Bool := false
  /-- Whether the streams of the shell take characters only. Then bytes are read as text
  before they are shown, and a program has no access to the streams. -/
  textOnly : Bool := false
deriving DecidableEq, Repr

/-- Which records are shown beside the errors, and with which time stamp. -/
structure Echo where
  least : Nat
  stamp : String
deriving DecidableEq, Repr

/-! ## The world -/

/-- Everything that an action can see or change. -/
structure World where
  files : FileSystem
  /-- The directory that the shell itself runs in. -/
  here : NodeId
  session : Session
  console : Console := {}
  terminals : Both Terminal := ⟨{}, {}⟩
  /-- The files that stand in for the terminals while a command runs. -/
  redirects : Both (Option OpenFile) := ⟨none, none⟩
  /-- The records of the log, last first. -/
  records : List Log.Record := []
  echo : Option Echo := none
deriving DecidableEq, Repr

abbrev Act := EStateM Fault World

namespace World

/-- The log, in the order in which the records were made. -/
def log (w : World) : List Log.Record :=
  w.records.reverse

def onTerminal (w : World) (c : Channel) (f : Terminal → Terminal) : World :=
  { w with terminals := w.terminals.set c (f (w.terminals.get c)) }

/-- The world with a record more, which is shown where records of its level are. -/
def note (w : World) (level : Log.Level) (source : Log.Source) (message : String) : World :=
  let record : Log.Record := ⟨level, source, message⟩
  let w := { w with records := record :: w.records }
  match w.echo with
  | some echo =>
    if echo.least ≤ level.number then
      w.onTerminal .err fun t => (t.print (Utf8.encode (record.line echo.stamp))).flush
    else w
  | none => w

/-- The world with nothing waiting in the buffers of the terminals. -/
def flushTerminals (w : World) : World :=
  { w with terminals := ⟨w.terminals.out.flush, w.terminals.err.flush⟩ }

end World

namespace Act

/-- The world that an action leaves, also when it stops with a fault. -/
def run (act : Act α) (w : World) : World :=
  match act w with
  | .ok _ w => w
  | .error _ w => w

def note (level : Log.Level) (source : Log.Source) (message : String) : Act Unit :=
  modify fun w => w.note level source message

def remember (f : Session → Session) : Act Unit :=
  modify fun w => { w with session := f w.session }

end Act

end LineShell
