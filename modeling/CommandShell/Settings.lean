/-
Module: CommandShell.Settings
Purpose: What is fixed for a whole session.
Trusted boundary: none
Main exports:
  Settings, Settings.shownPrompt
-/
import CommandShell.Redirection
import CommandShell.SearchPath

namespace CommandShell

/-- Session-wide settings.  A line may have fewer than `lineLimit` bytes, a candidate for a
command up to `candidateLimit`. -/
structure Settings where
  prompt : String := "whoosh> "
  quiet : Bool := false
  lineLimit : Nat := 128
  redirection : Redirection.Rules := {}
  targetMode : Mode := 0o644
  candidateLimit : Nat := 4096
  searchPath : SearchPath := SearchPath.standard
  script : Option Path := none
deriving Repr, DecidableEq, Inhabited

/-- The prompt that is written before each line: none in quiet mode. -/
def Settings.shownPrompt (settings : Settings) : String :=
  if settings.quiet then "" else settings.prompt

end CommandShell
