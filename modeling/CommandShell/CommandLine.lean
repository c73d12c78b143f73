/-
Module: CommandShell.CommandLine
Purpose: The shell as a command: options, startup script, standard input, exit code.
Trusted boundary: none
Main exports:
  Environment, Exit, CommandLine.run
-/
import CommandShell.Options
import CommandShell.Script
import CommandShell.Session
import CommandShell.Source.Reader

namespace CommandShell

/-- Where the command is run: a machine, the home directory that the environment names, and that
of the account. -/
structure Environment where
  machine : Machine
  home : Option Path
  accountHome : Option Path
deriving Inhabited

/-- What is left of the command: its exit code, what arrived at standard output and standard
error, its own and its programs', and the machine. -/
structure Exit where
  code : UInt8
  output : Bytes := []
  error : Bytes := []
  machine : Machine
deriving Inhabited

namespace CommandLine

def versionText : String := "whoosh 0.1.0\n"

/-- Run the startup script and then, unless that leaves the session, standard input. -/
def runSession (session : Session) (script : Option (List String)) (input : Supply) :
    Step (Except ShellError Unit) :=
  let sourced := session.sourceLines (script.getD [])
  match sourced.result with
  | .exit => { sourced with result := .ok () }
  | .proceed =>
      let ran := sourced.session.run (Reader.mk session.settings.lineLimit input)
      { ran with events := sourced.events ++ ran.events }

/-- What arrives at standard error, with the debug log in between if that is asked for. -/
def standardError (debug : Bool) (events : List Event) : Bytes :=
  if debug then arrivedWithLog events else arrived .error events

/-- The exit code of a session: a session that fails is told to the user like any failure. -/
def finish (debug : Bool) (step : Step (Except ShellError Unit)) : Exit :=
  match step.result with
  | .ok () =>
      { code := 0, output := arrived .output step.events, error := standardError debug step.events
        machine := step.session.world.machine }
  | .error error =>
      let events := step.events ++ (step.session.report error).events
      { code := 1, output := arrived .output events, error := standardError debug events
        machine := step.session.world.machine }

/-- Run the shell with options, in an environment, on standard input.  Arguments that are refused
end it with code 2 and the help text, a script that cannot be loaded with code 1 and the
diagnostic; neither runs a command. -/
def run (environment : Environment) (arguments : List String) (input : Supply) : Exit :=
  let machine := environment.machine
  match ({} : Options).parse arguments with
  | (_, .error error) =>
      { code := 2
        output := bytesOf Options.helpText
        error := bytesOf
          ("whoosh: " ++ (ShellError.options error.message).message ++ "\n")
        machine }
  | (options, .ok ()) =>
      if options.help then
        { code := 0, output := bytesOf Options.helpText, machine }
      else if options.version then
        { code := 0, output := bytesOf versionText, machine }
      else
        let settings := Settings.ofOptions options
        let session := Session.start settings machine environment.home {} {}
        let rc := (Script.homeDirectory environment.home environment.accountHome).map Script.rcPath
        match Script.load machine settings.script rc with
        | .error error => finish options.debug ⟨.error (.script error), session, []⟩
        | .ok script => finish options.debug (runSession session script input)

end CommandLine
end CommandShell
