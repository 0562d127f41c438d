import LineShell.Text.Keyword
import LineShell.World

/-!
# Settings

What the environment says about the prompt, the colors and the records of the log. Keywords
are taken without regard to case, and `NO_COLOR` wins over a wish for colors.
-/

namespace LineShell

structure Settings where
  prompt : String := "$ "
  colors : Bool := false
  /-- The least level of the records that are shown. -/
  logLevel : Nat := Log.Level.warning.number
deriving DecidableEq, Repr

namespace Settings

def affirmatives : List String := ["1", "true", "yes", "on"]

def asksForColors (env : Environment) : Bool :=
  affirmatives.contains (Text.lower ((env.lookup "MINISHELL_COLORS").getD ""))
    && (env.lookup "NO_COLOR").isNone

def ofEnvironment (env : Environment) : Settings :=
  { prompt := (env.lookup "MINISHELL_PROMPT").getD "$ "
    colors := asksForColors env
    logLevel :=
      ((env.lookup "MINISHELL_LOG_LEVEL").bind (Log.Level.ofKeyword? <| Text.upper ·)).getD
        Log.Level.warning.number }

end Settings

end LineShell
