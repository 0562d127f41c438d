import LineShell.ReadLoop
import LineShell.Settings

/-!
# The command line

The shell is started with options: `--color` highlights errors, `-h` and `--help` ask for
help. A long option may be shortened as long as it can be told from the others.
`Invocation.ofArguments` reads the options and `World.start` does what they ask for with the
whole text of the input.
-/

namespace LineShell

inductive Flag
  | help
  | color
deriving DecidableEq, Repr

def Flag.spellings : Flag → String
  | .help => "-h/--help"
  | .color => "--color"

def Flag.long : List (String × Flag) := [("--help", .help), ("--color", .color)]

inductive UsageError
  | ambiguous (text : String) (options : List String)
  | unexpectedValue (flag : Flag) (value : String)
  | unrecognized (arguments : List String)
deriving DecidableEq, Repr

def UsageError.message : UsageError → String
  | .ambiguous text options =>
    let candidates := ", ".intercalate options
    s!"ambiguous option: {text} could match {candidates}"
  | .unexpectedValue flag value =>
    s!"argument {flag.spellings}: ignored explicit argument {Text.quote value}"
  | .unrecognized arguments => "unrecognized arguments: " ++ " ".intercalate arguments

namespace CommandLine

/-! ## Options -/

inductive Argument
  | flag (flag : Flag)
  | valued (flag : Flag) (value : String)
  | ambiguous (options : List String)
  | other
deriving DecidableEq, Repr

/-- The parts before and after the first equals sign. -/
def splitValue (text : List Char) : List Char × Option (List Char) :=
  match text.dropWhile (· ≠ '=') with
  | [] => (text, none)
  | _ :: value => (text.takeWhile (· ≠ '='), some value)

def withValue (flag : Flag) : Option (List Char) → Argument
  | none => .flag flag
  | some value => .valued flag (String.ofList value)

/-- The options that follow `-h` in one argument: more of `h`, which change nothing. What is
no `h` counts as a value for the help, together with all that comes after it. -/
def moreHelp : List Char → Argument
  | [] => .flag .help
  | 'h' :: rest => moreHelp rest
  | value => .valued .help (String.ofList value)

/-- What follows `-h` in one argument. An equals sign right after it is passed over if
something comes after the sign. -/
def afterHelp : List Char → Argument
  | ['='] => .valued .help ""
  | '=' :: rest => moreHelp rest
  | rest => moreHelp rest

/-- What an argument is, by its form alone. -/
def classify (argument : String) : Argument :=
  match argument.toList with
  | '-' :: 'h' :: rest => afterHelp rest
  | '-' :: '-' :: rest =>
    let (name, value) := splitValue ('-' :: '-' :: rest)
    match Flag.long.filter fun (spelling, _) => name.isPrefixOf spelling.toList with
    | [] => .other
    | [(_, flag)] => withValue flag value
    | several => .ambiguous (several.map (·.1))
  | _ => .other

/-- The arguments before `--` and the rest from there on, which holds no options. -/
def splitOptions (arguments : List String) : List String × List String :=
  (arguments.takeWhile (· ≠ "--"), arguments.dropWhile (· ≠ "--"))

end CommandLine

inductive Invocation
  | help
  | run (color : Bool)
deriving DecidableEq, Repr

namespace CommandLine

/-- Reads arguments in order. `color` tells whether the option was met and `strange` keeps
what is no option; help and values that do not belong end the reading. -/
def readArguments (color : Bool) (strange : List String) :
    List String → Except UsageError Invocation
  | [] => if strange = [] then .ok (.run color) else .error (.unrecognized strange)
  | argument :: rest =>
    match classify argument with
    | .flag .help => .ok .help
    | .flag .color => readArguments true strange rest
    | .valued flag value => .error (.unexpectedValue flag value)
    | .ambiguous options => .error (.ambiguous argument options)
    | .other => readArguments color (strange ++ [argument]) rest

/-- The first argument that could be more than one option. -/
def ambiguity? (arguments : List String) : Option UsageError :=
  arguments.findSome? fun argument =>
    match classify argument with
    | .ambiguous options => some (.ambiguous argument options)
    | _ => none

end CommandLine

/-- What arguments ask for. An option that could be more than one is complained about before
all else. -/
def Invocation.ofArguments (arguments : List String) : Except UsageError Invocation :=
  let (options, others) := CommandLine.splitOptions arguments
  match CommandLine.ambiguity? options with
  | some e => .error e
  | none =>
    match CommandLine.readArguments false [] options with
    | .ok (.run color) =>
      if others = [] then .ok (.run color) else .error (.unrecognized others)
    | .error (.unrecognized strange) => .error (.unrecognized (strange ++ others))
    | outcome => outcome

namespace CommandLine

/-! ## Input -/

/-- The lines of a text, which end in a line feed, a carriage return or both. A last line
without an end counts if it is not empty. The characters of the line at hand are kept last
first. -/
def linesFrom (line : List Char) : List Char → List String
  | [] => if line = [] then [] else [String.ofList line.reverse]
  | '\r' :: '\n' :: rest => String.ofList line.reverse :: linesFrom [] rest
  | c :: rest =>
    if c = '\n' ∨ c = '\r' then String.ofList line.reverse :: linesFrom [] rest
    else linesFrom (c :: line) rest

def inputLines (input : String) : List String :=
  linesFrom [] input.toList

/-! ## Texts -/

def usage : String := "usage: minishell [-h] [--color]\n"

def help : String :=
  usage ++ "\noptions:\n"
    ++ "  -h, --help  show this help message and exit\n"
    ++ "  --color     print error messages in red on a terminal\n"

def complaint (e : UsageError) : String :=
  usage ++ s!"minishell: error: {e.message}\n"

/-- The exit code after a complaint about arguments. -/
def usageStatus : Int := 2

end CommandLine

namespace World

/-- The world in which the shell starts to read: its looks are those that the environment
and the options ask for. -/
def prepare (w : World) (stamp : String) (color : Bool) : World :=
  let settings := Settings.ofEnvironment w.session.env
  { w with
    console := { w.console with colors := settings.colors || color }
    echo := some { least := settings.logLevel, stamp } }

/-- Starts the shell with arguments and the text of its input, and gives the exit code and
the world at the end. Shown records have the given time stamp. -/
def start (w : World) (stamp : String) (arguments : List String) (input : String) :
    Int × World :=
  match Invocation.ofArguments arguments with
  | .error e =>
    (CommandLine.usageStatus,
      w.onTerminal .err (·.print (Utf8.encode (CommandLine.complaint e))))
  | .ok .help => (0, w.onTerminal .out (·.print (Utf8.encode CommandLine.help)))
  | .ok (.run color) =>
    let prompt := (Settings.ofEnvironment w.session.env).prompt
    let items := (CommandLine.inputLines input).map Item.line
    let w := (w.prepare stamp color).readAll { prompt, shows := true } id items
    (w.session.exit.getD 0, w)

end World

/-- The exit code of a process that ends with a status. Eight bits are left of it. -/
def exitCode (status : Int) : UInt32 :=
  UInt32.ofNat (status % 256).toNat

end LineShell
