/-!
# Records of the log

What the shell notes about its own work. A record has a level, the part of the shell that it
comes from and a message; `Record.line` writes it after a time stamp.
-/

namespace LineShell.Log

inductive Level
  | debug
  | info
  | warning
  | error
  | critical
deriving DecidableEq, Repr

namespace Level

/-- The number by which levels are compared. -/
def number : Level → Nat
  | .debug => 10
  | .info => 20
  | .warning => 30
  | .error => 40
  | .critical => 50

def name : Level → String
  | .debug => "DEBUG"
  | .info => "INFO"
  | .warning => "WARNING"
  | .error => "ERROR"
  | .critical => "CRITICAL"

/-- The least number that a keyword asks for, where it is one. -/
def ofKeyword? (keyword : String) : Option Nat :=
  match keyword with
  | "CRITICAL" | "FATAL" => some critical.number
  | "ERROR" => some error.number
  | "WARNING" | "WARN" => some warning.number
  | "INFO" => some info.number
  | "DEBUG" => some debug.number
  | "NOTSET" => some 0
  | _ => none

end Level

/-- The parts of the shell that keep records. -/
inductive Source
  | words
  | search
  | builtin
  | execution
  | reading
deriving DecidableEq, Repr

def Source.name : Source → String
  | .words => "minishell.lexer"
  | .search => "minishell.resolver"
  | .builtin => "minishell.builtins"
  | .execution => "minishell.executer"
  | .reading => "minishell.shell"

structure Record where
  level : Level
  source : Source
  message : String
deriving DecidableEq, Repr

def Record.line (stamp : String) (r : Record) : String :=
  s!"{stamp} {r.level.name} {r.source.name}: {r.message}\n"

end LineShell.Log
