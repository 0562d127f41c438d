import LineShell.FileSystem.Listing
import LineShell.FileSystem.Setup
import LineShell.World

/-!
# What happened between two moments

`World.since` compares two worlds of one run and gives what the shell showed in between,
which names of the tree changed their meaning, and the records of the log. Looking at the
tree leaves a trace: planned files have their planned permissions afterwards
(`World.lookedAt`).
-/

namespace LineShell

structure Progress where
  out : Bytes
  err : Bytes
  changed : List (String × Option Entry)
  records : List Log.Record
deriving DecidableEq, Repr

/-- What came to a list that is kept last first, in order. -/
def added (before after : List α) : List α :=
  (after.take (after.length - before.length)).reverse

namespace World

/-- What somebody sees who looks through the working directory and opens what was planned. -/
def inventory (w : World) (plans : List Plan) : List (String × Entry) :=
  (w.files.unlock plans).listing FileSystem.workplace

/-- The world after such a look. -/
def lookedAt (w : World) (plans : List Plan) : World :=
  { w with files := w.files.relock plans }

/-- What happened from `before` to `after` to a tree that was made by plans, with the records
of level `least` or above. -/
def since (after before : World) (plans : List Plan) (least : Nat) : Progress :=
  { out := added before.terminals.out.printed after.terminals.out.printed
    err := added before.terminals.err.printed after.terminals.err.printed
    changed := changes (before.inventory plans) (after.inventory plans)
    records := (added before.records after.records).filter fun r => least ≤ r.level.number }

end World

end LineShell
