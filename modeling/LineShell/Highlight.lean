/-!
# Highlighted text

On a terminal an error can be shown in color: the text stands between the sequence that
turns a color on and the one that turns it off. Off a terminal nothing is added.
-/

namespace LineShell.Highlight

def reset : String := "\x1b[0m"

/-- The sequence that starts a color; nothing for a name that is no color. -/
def start (color : String) : String :=
  match color with
  | "RED" => "\x1b[91m"
  | "RESET" => reset
  | _ => ""

/-- The text in a color, where colors are asked for and the text is shown on a terminal. -/
def highlight (text color : String) (isTerminal colors : Bool) : String :=
  if colors && isTerminal then start color ++ text ++ reset else text

end LineShell.Highlight
