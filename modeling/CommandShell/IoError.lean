/-
Module: CommandShell.IoError
Purpose: Why the system refuses an operation, and how that is told.
Trusted boundary: none
Main exports:
  SystemError, IoError, IoError.message, IoError.closed
-/
namespace CommandShell

/-- The refusals of the system itself, each with a number and a text of its own. -/
inductive SystemError where
  | missing
  | notExecutable
  | denied
  | notDirectory
  | isDirectory
  | busy
  | nameTooLong
  | tooManyLinks
deriving Repr, DecidableEq, Inhabited

def SystemError.number : SystemError → Nat
  | .missing => 2
  | .notExecutable => 8
  | .denied => 13
  | .notDirectory => 20
  | .isDirectory => 21
  | .busy => 26
  | .nameTooLong => 36
  | .tooManyLinks => 40

def SystemError.text : SystemError → String
  | .missing => "No such file or directory"
  | .notExecutable => "Exec format error"
  | .denied => "Permission denied"
  | .notDirectory => "Not a directory"
  | .isDirectory => "Is a directory"
  | .busy => "Text file busy"
  | .nameTooLong => "File name too long"
  | .tooManyLinks => "Too many levels of symbolic links"

/-- Why an operation on files, programs or streams fails. -/
inductive IoError where
  | system (error : SystemError)
  /-- A path holds the byte that ends paths, so it cannot be handed to the system. -/
  | nulInPath
  /-- The path or an argument of a program to start holds the byte that ends them. -/
  | nulInArgument
  /-- The content read is not UTF-8. -/
  | notUtf8
  /-- A failure that is known by its text only. -/
  | described (text : String)
deriving Repr, DecidableEq, Inhabited

def IoError.message : IoError → String
  | .system error => error.text ++ " (os error " ++ toString error.number ++ ")"
  | .nulInPath => "file name contained an unexpected NUL byte"
  | .nulInArgument => "nul byte found in provided data"
  | .notUtf8 => "stream did not contain valid UTF-8"
  | .described text => text

/-- The failure of a stream that takes nothing more. -/
def IoError.closed : IoError := .described "closed"

end CommandShell
