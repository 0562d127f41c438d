import LineShell.FileSystem.Walk

/-!
# What is launched when a file is launched

`FileSystem.image` finds the program behind a path. A file can hold a program, or it can be
a script, whose first line names the file to launch in its place with the path of the script
as an argument. Everything else has no format that can be launched. Nothing is launched while
it is open for writing, and nothing is given a text that is too long.
-/

namespace LineShell

/-- A program and the arguments that it is to be given. -/
structure Image where
  program : Program
  arguments : List String
deriving DecidableEq, Repr

namespace Image

/-- How many bytes of a script are looked at. -/
def headSize : Nat := 256

/-- How many files a launch goes through before it gives up. -/
def maxDepth : Nat := 6

/-- How many bytes one text may have that a program is given. -/
def maxText : Nat := 131071

def isShort (text : String) : Bool :=
  text.utf8ByteSize ≤ maxText

/-- Whether a program can be given a variable, which is handed over as `name=value`. -/
def isShortVariable : String × String → Bool
  | (name, value) => isShort (name ++ "=" ++ value)

def isGap (b : UInt8) : Bool :=
  b = 0x20 || b = 0x09

/-- The file that a first line names and the argument after it. -/
def splitLine (line : Bytes) : Bytes × Option Bytes :=
  let named := line.dropWhile isGap
  let rest := named.dropWhile fun b => !isGap b
  (named.takeWhile fun b => !isGap b, if rest = [] then none else some (rest.dropWhile isGap))

def trimEnd (line : Bytes) : Bytes :=
  (line.reverse.dropWhile isGap).reverse

/-- The file and the argument that a complete first line names. -/
def ofLine? (line : Bytes) : Option (Bytes × Option Bytes) :=
  match splitLine (trimEnd line) with
  | ([], _) => none
  | named => some named

/-- The file that a script is to be read by and the argument that it is given before the script.
The first line stands after the mark `#!`. Where the script or its text ends in the first line,
gaps at the end belong to the argument, and a missing name means the directory at hand. A line
that does not end in the part that is looked at is cut off, which must not shorten the name. -/
def interpreter? (data : Bytes) : Option (Bytes × Option Bytes) :=
  match data.take headSize with
  | 0x23 :: 0x21 :: rest =>
    let line := rest.takeWhile fun b => b ≠ 0x0A && b ≠ 0
    match rest.drop line.length with
    | 0x0A :: _ => ofLine? line
    | [] =>
      if data.length < headSize then ofText line
      else if ((line.dropWhile isGap).any isGap) then ofLine? line.dropLast
      else none
    | _ => ofText line
  | _ => none
where
  ofText (line : Bytes) : Option (Bytes × Option Bytes) :=
    match splitLine line with
    | ([], _) => some ([0x2E], none)
    | named => some named

/-! ## Scripts -/

/-- The actions of one line of a script. Scripts know `printf` with one word and `exit` with a
number; other lines do nothing. -/
def scriptAction? (line : String) : Option Action :=
  match (Text.pieces ' ' line).filter (· ≠ "") with
  | ["printf", word] => some (.out word)
  | ["exit"] => some (.finish 0)
  | ["exit", number] => number.toNat?.map .finish
  | _ => none

def scriptActions (text : String) : List Action :=
  (Text.pieces '\n' text).filterMap scriptAction?

end Image

namespace FileSystem

/-- What a file holds that is to be launched. It has to be a regular file that may be
launched, and none of the files `busy`, which somebody is writing to. -/
def openToLaunch (fs : FileSystem) (busy : List NodeId) (here : NodeId) (path : String) :
    Except Errno (Bytes × Option Program) :=
  match fs.find here path with
  | .error e => .error e
  | .ok id =>
    match fs.node? id with
    | some (.file access data program) =>
      if !access.execute then .error .permissionDenied
      else if id ∈ busy then .error .fileBusy
      else .ok (data.toList, program)
    | _ => .error .permissionDenied

/-- The program behind a path, seen from the directory `here`, going through at most `depth`
files before it. -/
def imageWithin (fs : FileSystem) (busy : List NodeId) (here : NodeId) :
    Nat → String → List String → Except Errno Image
  | 0, path, _ =>
    match fs.openToLaunch busy here path with
    | .error e => .error e
    | .ok _ => .error .tooManyLinks
  | depth + 1, path, arguments =>
    match fs.openToLaunch busy here path with
    | .error e => .error e
    | .ok (_, some program) => .ok { program, arguments }
    | .ok (data, none) =>
      match Image.interpreter? data with
      | none => .error .execFormat
      | some (file, argument) =>
        imageWithin fs busy here depth (Utf8.decode file)
          ((argument.map Utf8.decode).toList ++ path :: arguments)

/-- The program behind a path, while the files `busy` are open for writing. It is looked for
only if the file can be opened and each argument and each variable is short enough to be given
to a program. -/
def image (fs : FileSystem) (busy : List NodeId) (here : NodeId) (path : String)
    (arguments : List String) (env : List (String × String)) : Except Errno Image :=
  match fs.openToLaunch busy here path with
  | .error e => .error e
  | .ok _ =>
    if arguments.all Image.isShort && env.all Image.isShortVariable then
      fs.imageWithin busy here Image.maxDepth path arguments
    else .error .argumentsTooLong

end FileSystem

end LineShell
