/-!
# Programs

What an executable does when it runs: a list of actions in order. A program can also be the
reader of scripts, whose actions stand in the file that it is given.
-/

namespace LineShell

/-- Who may do what with a file or directory, for the one user there is. On a directory
`execute` is the right to go through it. -/
structure Access where
  read : Bool
  write : Bool
  execute : Bool
deriving DecidableEq, Repr

/-- The owner's part of permission bits such as `0o755`. -/
def Access.ofBits (bits : Nat) : Access :=
  { read := bits.testBit 8, write := bits.testBit 7, execute := bits.testBit 6 }

inductive Action
  | out (text : String)
  | err (text : String)
  /-- Prints each argument in brackets on a line of its own. -/
  | showArguments
  /-- Prints the directory that it runs in, by the names of the directories themselves. -/
  | showDirectory
  /-- Prints the value of a variable of its environment. -/
  | showVariable (name : String)
  /-- Puts a text into a file, which it creates where it is missing. -/
  | write (path text : String)
  /-- Removes what a path names, a directory with all that is in it. -/
  | remove (path : String)
  | permit (path : String) (access : Access)
  /-- Interrupts the shell, which goes on waiting. -/
  | interrupt
  | die (signal : Nat)
  | finish (status : Nat)
deriving DecidableEq, Repr

inductive Program
  | actions (actions : List Action)
  | scriptReader
deriving DecidableEq, Repr

end LineShell
