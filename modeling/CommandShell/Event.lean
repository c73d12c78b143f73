/-
Module: CommandShell.Event
Purpose: What happens in a session, as one list of events in order, and views of it.
Trusted boundary: none
Main exports:
  Attempt, Event, LogLevel, Event.logText?, shellWrote, programsWrote, arrived, causes, log,
  segments
-/
import CommandShell.Builtin
import CommandShell.Sink
import CommandShell.Source

namespace CommandShell

/-- An attempt to start a program: its path, which is also its first argument, the arguments
after that, and the files its output streams were connected to. -/
structure Attempt where
  program : Path
  arguments : List String
  output : Option Path
  error : Option Path
deriving Repr, DecidableEq, Inhabited

/-!
The events of a session tell all that can be observed of it.  What arrived on a stream, which
failures were reported and what the log says are views of the list of events, so they always tell
the same story.
-/

inductive Event where
  /-- The source was asked for a line with this prompt, and answered. -/
  | read (prompt : String) (reading : Reading)
  /-- A line is about to be executed. -/
  | executing (line : String)
  | prompted (write : Write)
  | printed (write : Write)
  | flushed (stream : Stream) (succeeded : Bool)
  /-- A failure was told to the user.  The user sees the same line whatever the cause. -/
  | reported (cause : ShellError) (write : Write)
  | dispatched (builtin : Builtin)
  | moved (place : Place)
  | probed (candidate : String)
  | resolved (command program : String)
  | attempted (attempt : Attempt)
  | started (program : Path) (location : Location)
  /-- A running program wrote to a stream that it shares with the shell. -/
  | programWrote (stream : Stream) (bytes : Bytes)
  | ended (program : Path) (status : Status)
  /-- A redirected program could not be started, and its error stream is told so. -/
  | diverted (program : Path) (cause : IoError)
  | unsuccessful (command : String) (status : Status)
deriving Repr, DecidableEq, Inhabited

/-- How much detail a line of the log belongs to. -/
inductive LogLevel where
  | debug
  | trace
deriving Repr, DecidableEq, Inhabited

namespace Event

/-- The candidates of a search are the finer detail. -/
def logLevel : Event → LogLevel
  | .probed _ => .trace
  | _ => .debug

/-- The line of the log about an event, if there is one. -/
def logText? : Event → Option String
  | .dispatched builtin => some ("dispatching builtin=" ++ builtin.name)
  | .probed candidate => some ("probing candidate=" ++ candidate)
  | .resolved command program =>
      some ("resolved command=" ++ command ++ " program=" ++ program)
  | .started program _ => some ("spawned program=" ++ shown program)
  | .ended program status =>
      some ("child exited status=" ++ status.text ++ " program=" ++ shown program)
  | .diverted program cause =>
      some ("exec failed under redirection program=" ++ shown program ++ " error=" ++
        cause.message)
  | .unsuccessful command status =>
      some ("command failed status=" ++ status.text ++ " command=" ++ command)
  | .flushed .output false =>
      some ("flushing session output failed error=" ++ IoError.closed.message)
  | .reported cause _ => some ("reporting failure error=" ++ cause.message)
  | _ => none

/-- What a debug log on a stream gets of an event: a line that is marked as such. -/
def debugLine (event : Event) : Bytes :=
  match event.logLevel, event.logText? with
  | .debug, some text => bytesOf ("DEBUG " ++ text ++ "\n")
  | _, _ => []

/-- What an event of the shell itself brought to a stream. -/
def shellBytes (stream : Stream) : Event → Bytes
  | .prompted write => if stream = .output then write.delivered else []
  | .printed write => if stream = .output then write.delivered else []
  | .reported _ write => if stream = .error then write.delivered else []
  | _ => []

/-- What an event of a program brought to a stream that it shares with the shell. -/
def programBytes (stream : Stream) : Event → Bytes
  | .programWrote written bytes => if stream = written then bytes else []
  | _ => []

/-- The failure that was reported in an event. -/
def cause? : Event → Option ShellError
  | .reported cause _ => some cause
  | _ => none

def isRead : Event → Bool
  | .read .. => true
  | _ => false

end Event

/-- What the shell brought to one of its own streams. -/
def shellWrote (stream : Stream) (events : List Event) : Bytes :=
  events.flatMap (Event.shellBytes stream)

/-- What programs brought to a stream that they share with the shell. -/
def programsWrote (stream : Stream) (events : List Event) : Bytes :=
  events.flatMap (Event.programBytes stream)

/-- All that arrived where a stream of the shell leads to, from the shell and from programs. -/
def arrived (stream : Stream) (events : List Event) : Bytes :=
  events.flatMap fun event => event.shellBytes stream ++ event.programBytes stream

/-- What arrived at standard error if the debug log goes there too.  The line about an event comes
before what the event itself writes. -/
def arrivedWithLog (events : List Event) : Bytes :=
  events.flatMap fun event =>
    event.debugLine ++ (event.shellBytes .error ++ event.programBytes .error)

/-- The failures that were reported. -/
def causes (events : List Event) : List ShellError :=
  events.filterMap Event.cause?

/-- The lines of the log. -/
def log (events : List Event) : List String :=
  events.filterMap Event.logText?

/-- The events before the first read, and then those from each read up to the next. -/
def segments : List Event → List (List Event)
  | [] => [[]]
  | event :: rest =>
      match segments rest with
      | [] => [[event]]
      | segment :: more =>
          if event.isRead then [] :: (event :: segment) :: more
          else (event :: segment) :: more

end CommandShell
