/-
Module: CommandShell.Program
Purpose: Programs as the shell sees them: what they are started with, what they write, how they
  end.
Trusted boundary: none
Main exports:
  Stream, Invocation, Status, Behaviour, Program, Program.opened, Invocation.unread,
  ScriptedProgram
-/
import CommandShell.IoError
import CommandShell.Path

namespace CommandShell

/-- The two output streams of a program. -/
inductive Stream where
  | output
  | error
deriving Repr, DecidableEq, Inhabited

/-- What a program is started with: its arguments, the path it was started by being the first,
and the working directory, if that still has a path. -/
structure Invocation where
  arguments : List Bytes
  directory : Option Path
deriving Repr, DecidableEq, Inhabited

/-- How a program ended. -/
inductive Status where
  | exited (code : UInt8)
  | killed (signal : Nat)
deriving Repr, DecidableEq, Inhabited

namespace Status

def success (status : Status) : Bool :=
  status == .exited 0

/-- The names of the signals, the one with number 1 first. -/
def signalNames : List String :=
  ["SIGHUP", "SIGINT", "SIGQUIT", "SIGILL", "SIGTRAP", "SIGABRT", "SIGBUS", "SIGFPE", "SIGKILL",
    "SIGUSR1", "SIGSEGV", "SIGUSR2", "SIGPIPE", "SIGALRM", "SIGTERM", "SIGSTKFLT", "SIGCHLD",
    "SIGCONT", "SIGSTOP", "SIGTSTP", "SIGTTIN", "SIGTTOU", "SIGURG", "SIGXCPU", "SIGXFSZ",
    "SIGVTALRM", "SIGPROF", "SIGWINCH", "SIGIO", "SIGPWR", "SIGSYS"]

/-- The name of a signal in brackets, after a space; nothing for a signal without a name. -/
def signalLabel : Nat → String
  | 0 => ""
  | index + 1 =>
      match signalNames[index]? with
      | some name => " (" ++ name ++ ")"
      | none => ""

def text : Status → String
  | .exited code => "exit status: " ++ toString code.toNat
  | .killed signal => "signal: " ++ toString signal ++ signalLabel signal

end Status

/-- What a program does: the pieces it writes, in order, and how it ends. -/
structure Behaviour where
  writes : List (Stream × Bytes)
  status : Status
deriving Repr, DecidableEq, Inhabited

/-- All that a program writes to one stream. -/
def Behaviour.written (behaviour : Behaviour) (stream : Stream) : Bytes :=
  (behaviour.writes.filter fun piece => piece.1 = stream).flatMap Prod.snd

/-- A program touches nothing but its two output streams, so it is what it does when started.  Some
programs are read from their file by an interpreter that has been started for them. -/
structure Program where
  run : Invocation → Behaviour
  /-- What happens instead if the file may be run but not read. -/
  runUnread : Invocation → Behaviour := run

instance : Inhabited Program := ⟨{ run := fun _ => default }⟩

/-- What runs for the program if its file may be read, and if it may not. -/
def Program.opened (program : Program) (readable : Bool) : Program :=
  if readable then program else { run := program.runUnread }

/-!
A script is a program that is read from its file, by the path it was started by.  The interpreter
complains on standard error if it finds itself in a directory that has been removed, and then goes
on.
-/

/-- What the interpreter has to say before it reads the script. -/
def Invocation.startingComplaint (invocation : Invocation) : Bytes :=
  match invocation.directory with
  | some _ => []
  | none => bytesOf ("sh: 0: getcwd() failed: " ++ SystemError.missing.text ++ "\n")

/-- What becomes of a script that may not be read: the interpreter says so and ends. -/
def Invocation.unread (invocation : Invocation) : Behaviour where
  writes :=
    [(.error, invocation.startingComplaint),
      (.error, bytesOf "/bin/sh: 0: cannot open " ++ invocation.arguments.headD [] ++
        bytesOf (": " ++ SystemError.denied.text ++ "\n"))]
  status := .exited 2

/-- A script that does the same on every run, apart from telling what it was started with. -/
structure ScriptedProgram where
  output : Bytes := []
  tellsArguments : Bool := false
  tellsDirectory : Bool := false
  complaint : Bytes := []
  status : Status := .exited 0
deriving Repr, DecidableEq, Inhabited

/-- One line of output for each item. -/
private def asLines (items : List Bytes) : Bytes :=
  items.flatMap fun item => item ++ bytesOf "\n"

/-- Standard output gets the fixed text, the arguments and the directory, in this order; then the
complaint goes to standard error. -/
def ScriptedProgram.program (script : ScriptedProgram) : Program where
  run invocation :=
    { writes :=
        [(.error, invocation.startingComplaint),
          (.output, script.output),
          (.output, if script.tellsArguments then asLines invocation.arguments else []),
          (.output, if script.tellsDirectory then asLines invocation.directory.toList else []),
          (.error, script.complaint)]
      status := script.status }
  runUnread := Invocation.unread

end CommandShell
