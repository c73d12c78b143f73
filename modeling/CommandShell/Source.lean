/-
Module: CommandShell.Source
Purpose: Where a session gets its lines from.
Trusted boundary: none
Main exports:
  Reading, Reading.continues, LineSource, LineSource.readings
-/
import CommandShell.Failure

namespace CommandShell

/-- The answer of a source that is asked for a line. -/
inductive Reading where
  /-- A line, without the newline at its end. -/
  | line (text : String)
  /-- A line that is too long.  All of it is gone. -/
  | overflow
  /-- The user gave up the line. -/
  | interrupted
  | finished
  | failed (cause : ShellError)
deriving Repr, DecidableEq, Inhabited

/-- Whether a session goes on after the answer, apart from what a line itself asks for. -/
def Reading.continues : Reading → Bool
  | .line _ => true
  | .overflow => true
  | .interrupted => true
  | .finished => false
  | .failed _ => false

/-- A source of lines.  Each answer that lets a session go on uses up some of it, so a session
comes to an end.  A source may draw the prompt itself. -/
class LineSource (σ : Type) where
  next : σ → Reading × σ
  showsPrompt : σ → Bool
  size : σ → Nat
  size_next : ∀ source : σ, (next source).1.continues = true → size (next source).2 < size source

namespace LineSource

variable {σ : Type} [LineSource σ]

/-- The source after it has been asked `count` times. -/
def after : Nat → σ → σ
  | 0, source => source
  | count + 1, source => after count (next source).2

/-- The first `count` answers of a source. -/
def readings : Nat → σ → List Reading
  | 0, _ => []
  | count + 1, source => (next source).1 :: readings count (next source).2

end LineSource
end CommandShell
