import LineShell.Fault

/-!
# The names of the builtins

Six commands are carried out by the shell itself. `Builtin.name` and `Builtin.ofName?` go
between a builtin and what the user calls it (`ofName?_eq_some_iff`), and
`Builtin.completion` offers names that start as the user has started.
-/

namespace LineShell

/-- A command of the shell itself. -/
inductive Builtin
  | exit
  | echo
  | pwd
  | cd
  | type
  | cat
deriving DecidableEq, Repr

namespace Builtin

/-- What the user calls it. -/
def name : Builtin → String
  | .exit => "exit"
  | .echo => "echo"
  | .pwd => "pwd"
  | .cd => "cd"
  | .type => "type"
  | .cat => "cat"

def all : List Builtin := [.cat, .cd, .echo, .exit, .pwd, .type]

def ofName? (name : String) : Option Builtin :=
  all.find? (·.name = name)

theorem ofName?_eq_some_iff {name : String} {b : Builtin} :
    ofName? name = some b ↔ b.name = name := by
  constructor
  · intro found
    simpa using List.find?_some found
  · rintro rfl
    cases b <;> decide

/-- The builtin of a name that is expected to be one. -/
def ofName (name : String) : Except Fault Builtin :=
  match ofName? name with
  | some b => .ok b
  | none => .error (.notBuiltin name)

/-! ## Completion -/

/-- Why there is no completion at a position. -/
inductive CompletionError
  /-- The position is before the first completion. -/
  | outOfRange
  /-- The position is no number of 64 bits. -/
  | notAPosition
deriving DecidableEq, Repr

def CompletionError.message : CompletionError → String
  | .outOfRange => "list index out of range"
  | .notAPosition => "cannot fit 'int' into an index-sized integer"

/-- The names that start with `text`, in alphabetical order. -/
def matching (text : String) : List String :=
  (all.map name).filter fun name => text.toList.isPrefixOf name.toList

/-- The completion of `text` at a position, which is followed by a blank. Negative positions
count from the end; after the last completion there is nothing. -/
def completion (text : String) (position : Int) : Except CompletionError (Option String) :=
  let names := matching text
  if names.length ≤ position then .ok none
  else
    let place := if position < 0 then position + names.length else position
    if place < 0 then
      .error (if position < Int64.minValue.toInt then .notAPosition else .outOfRange)
    else .ok (names[place.toNat]?.map (· ++ " "))

end Builtin

end LineShell
