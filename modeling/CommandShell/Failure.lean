/-
Module: CommandShell.Failure
Purpose: Every way in which a part of the shell fails, with its text and its causes.
Trusted boundary: none
Main exports:
  diagnostic, LaunchError, CommandError, ReadlineError, ScriptError, ShellError, and `message` and
  `chain` of each
-/
import CommandShell.Redirection
import CommandShell.SearchPath

namespace CommandShell

/-!
A failure has a text of its own and, behind it, the failures that caused it.  `chain` lists the
texts from the outermost to the root cause.  A failure that only passes another one on has no
text of its own: its chain is the chain of the other.
-/

/-- The one line that users see of any failure. -/
def diagnostic : Bytes := bytesOf "An error has occurred\n"

/-- The texts of a failure of the system.  Nothing is behind it. -/
def IoError.chain (error : IoError) : List String :=
  [error.message]

def ClauseError.chain (error : ClauseError) : List String :=
  [error.message]

def ResolveError.chain (error : ResolveError) : List String :=
  [error.message]

/-- Why a program was not run. -/
inductive LaunchError where
  | redirect (path : Path) (cause : IoError)
  | start (program : Path) (cause : IoError)
  | wait (program : Path) (cause : IoError)
deriving Repr, DecidableEq, Inhabited

def LaunchError.message : LaunchError → String
  | .redirect path cause => "failed to redirect output to " ++ shown path ++ ": " ++ cause.message
  | .start program cause => "failed to start " ++ shown program ++ ": " ++ cause.message
  | .wait program cause => "failed to wait for " ++ shown program ++ ": " ++ cause.message

def LaunchError.cause : LaunchError → IoError
  | .redirect _ cause => cause
  | .start _ cause => cause
  | .wait _ cause => cause

def LaunchError.chain (error : LaunchError) : List String :=
  error.message :: error.cause.chain

/-- Why a command failed. -/
inductive CommandError where
  | noHome
  | changeDirectory (path : String) (cause : IoError)
  | currentDirectory (cause : IoError)
  | clause (error : ClauseError)
  | resolve (error : ResolveError)
  | launch (error : LaunchError)
  | io (cause : IoError)
deriving Repr, DecidableEq, Inhabited

def CommandError.message : CommandError → String
  | .noHome => "home directory not found"
  | .changeDirectory path cause => "cannot change directory to " ++ path ++ ": " ++ cause.message
  | .currentDirectory cause => "cannot read working directory: " ++ cause.message
  | .clause error => "syntax error: " ++ error.message
  | .resolve error => error.message
  | .launch error => error.message
  | .io cause => "IO error: " ++ cause.message

def CommandError.chain : CommandError → List String
  | .noHome => [CommandError.noHome.message]
  | .changeDirectory path cause => (CommandError.changeDirectory path cause).message :: cause.chain
  | .currentDirectory cause => (CommandError.currentDirectory cause).message :: cause.chain
  | .clause error => (CommandError.clause error).message :: error.chain
  | .resolve error => error.chain
  | .launch error => error.chain
  | .io cause => (CommandError.io cause).message :: cause.chain

/-- Why the line editor gave no line. -/
inductive ReadlineError where
  | finished
  | interrupted
  | io (cause : IoError)
deriving Repr, DecidableEq, Inhabited

def ReadlineError.message : ReadlineError → String
  | .finished => "EOF"
  | .interrupted => "Interrupted"
  | .io cause => cause.message

def ReadlineError.chain : ReadlineError → List String
  | .finished => [ReadlineError.finished.message]
  | .interrupted => [ReadlineError.interrupted.message]
  | .io cause => (ReadlineError.io cause).message :: cause.chain

/-- Why the startup script could not be loaded. -/
inductive ScriptError where
  | notFound (path : Path)
  | io (cause : IoError)
deriving Repr, DecidableEq, Inhabited

def ScriptError.message : ScriptError → String
  | .notFound path => "startup script not found: " ++ shown path
  | .io cause => "IO error: " ++ cause.message

def ScriptError.chain : ScriptError → List String
  | .notFound path => [(ScriptError.notFound path).message]
  | .io cause => (ScriptError.io cause).message :: cause.chain

/-- Why the shell as a whole has something to report. -/
inductive ShellError where
  | readline (error : ReadlineError)
  | io (cause : IoError)
  /-- An input line does not fit into this many bytes, its end included. -/
  | overflow (limit : Nat)
  | command (error : CommandError)
  | script (error : ScriptError)
  | options (reason : String)
deriving Repr, DecidableEq, Inhabited

def ShellError.message : ShellError → String
  | .readline error => "Readline error: " ++ error.message
  | .io cause => "IO error: " ++ cause.message
  | .overflow limit => s!"input line longer than {limit} bytes"
  | .command error => error.message
  | .script error => "Config error: " ++ error.message
  | .options reason => "Flag error: " ++ reason

def ShellError.chain : ShellError → List String
  | .readline error => (ShellError.readline error).message :: error.chain
  | .io cause => (ShellError.io cause).message :: cause.chain
  | .overflow limit => [(ShellError.overflow limit).message]
  | .command error => error.chain
  | .script error => (ShellError.script error).message :: error.chain
  | .options reason => [(ShellError.options reason).message]

/-- The texts of the failures behind this one. -/
def ShellError.sources (error : ShellError) : List String :=
  error.chain.tail

end CommandShell
