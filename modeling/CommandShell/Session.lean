/-
Module: CommandShell.Session
Purpose: Sessions: carrying out commands, lines and whole sources of lines.
Trusted boundary: none
Main exports:
  Session, Step, Session.perform, Session.report, Session.executeLine, Session.sourceLines,
  Session.showPrompt, Session.answer, Session.run
-/
import CommandShell.Interpreter
import CommandShell.Token

namespace CommandShell

structure Session where
  settings : Settings := {}
  world : World := {}
  out : Sink := {}
  err : Sink := {}
deriving Inhabited

/-- A part of a session: what came of it, the session after it, and what happened. -/
structure Step (α : Type) where
  result : α
  session : Session
  events : List Event
deriving Inhabited

namespace Session

/-- A session in a world whose search path is the one the settings start with. -/
def start (settings : Settings) (machine : Machine) (home : Option Path) (out err : Sink) :
    Session :=
  ⟨settings, ⟨machine, settings.searchPath, home⟩, out, err⟩

/-- Carry out the tokens of a command.  What it prints goes to the output stream; if not all of it
arrives, that is the failure of the command, whatever else would have come of it. -/
def perform (session : Session) (tokens : List String) : Step (Except CommandError Flow) :=
  let effect := session.world.perform session.settings tokens
  if effect.printed.isEmpty then
    ⟨effect.outcome, { session with world := effect.world }, effect.events⟩
  else
    let write := session.out.write effect.printed
    ⟨if write.complete then effect.outcome else .error (.io .closed),
      { session with world := effect.world, out := session.out.written effect.printed },
      effect.events ++ [.printed write]⟩

/-- Tell the user that something failed.  If that does not work either, nothing follows. -/
def report (session : Session) (cause : ShellError) : Step Unit :=
  ⟨(), { session with err := session.err.written diagnostic },
    [.reported cause (session.err.write diagnostic), .flushed .error session.err.flushes]⟩

/-- Execute a line.  The output stream is flushed after the command and before the report of its
failure; a blank line is no command.  A failure does not end the session. -/
def executeLine (session : Session) (line : String) : Step Flow :=
  match tokenize line with
  | [] => ⟨.proceed, session, [.executing line]⟩
  | tokens =>
      let performed := session.perform tokens
      let events :=
        .executing line :: performed.events ++ [.flushed .output session.out.flushes]
      match performed.result with
      | .ok flow => ⟨flow, performed.session, events⟩
      | .error error =>
          let reported := performed.session.report (.command error)
          ⟨.proceed, reported.session, events ++ reported.events⟩

/-- Execute lines that are known beforehand, up to the first that leaves the session. -/
def sourceLines (session : Session) : List String → Step Flow
  | [] => ⟨.proceed, session, []⟩
  | line :: rest =>
      let executed := session.executeLine line
      match executed.result with
      | .exit => executed
      | .proceed =>
          let later := executed.session.sourceLines rest
          { later with events := executed.events ++ later.events }

/-! ### The loop -/

/-- Write the prompt before a line is read.  Nothing is written in quiet mode, nor for a source
that draws the prompt itself.  A prompt that does not arrive ends the session. -/
def showPrompt (session : Session) (shownBySource : Bool) : Step (Except ShellError Unit) :=
  let prompt := bytesOf session.settings.shownPrompt
  if prompt.isEmpty || shownBySource then
    ⟨.ok (), session, []⟩
  else
    let write := session.out.write prompt
    let session' := { session with out := session.out.written prompt }
    if !write.complete then
      ⟨.error (.io .closed), session', [.prompted write]⟩
    else
      ⟨if session.out.flushes then .ok () else .error (.io .closed), session',
        [.prompted write, .flushed .output session.out.flushes]⟩

/-- What is done with an answer of the source: how the session ends, or `none` if it goes on. -/
def answer (session : Session) : Reading → Step (Option (Except ShellError Unit))
  | .line text =>
      let executed := session.executeLine text
      match executed.result with
      | .exit => ⟨some (.ok ()), executed.session, executed.events⟩
      | .proceed => ⟨none, executed.session, executed.events⟩
  | .overflow =>
      let reported := session.report (.overflow session.settings.lineLimit)
      ⟨none, reported.session, reported.events⟩
  | .interrupted => ⟨none, session, []⟩
  | .finished => ⟨some (.ok ()), session, []⟩
  | .failed cause => ⟨some (.error cause), session, []⟩

/-- The session goes on only after a reading that promises another one. -/
theorem continues_of_answer {session : Session} {reading : Reading}
    (goesOn : (session.answer reading).result = none) : reading.continues = true := by
  cases reading with
  | line => rfl
  | overflow => rfl
  | interrupted => rfl
  | finished => cases goesOn
  | failed => cases goesOn

/-- Prompt for, read and answer one line after the other, until the session is left, the source
has finished, or the source or a prompt fails. -/
def run {σ : Type} [LineSource σ] (session : Session) (source : σ) :
    Step (Except ShellError Unit) :=
  let prompted := session.showPrompt (LineSource.showsPrompt source)
  match prompted.result with
  | .error error => ⟨.error error, prompted.session, prompted.events⟩
  | .ok () =>
      let reading := (LineSource.next source).1
      let answered := prompted.session.answer reading
      let events := prompted.events ++
        .read session.settings.shownPrompt reading :: answered.events
      match _goesOn : answered.result with
      | some result => ⟨result, answered.session, events⟩
      | none =>
          let later := answered.session.run (LineSource.next source).2
          { later with events := events ++ later.events }
termination_by LineSource.size source
decreasing_by exact LineSource.size_next source (continues_of_answer _goesOn)

end Session
end CommandShell
