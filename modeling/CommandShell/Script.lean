/-
Module: CommandShell.Script
Purpose: Finding, reading and cleaning the startup script.
Trusted boundary: none
Main exports:
  Script.rcPath, Script.commands, Script.load
-/
import CommandShell.Failure
import CommandShell.Text.Blank

namespace CommandShell
namespace Script

/-- The name of the startup script in the home directory. -/
def rcName : Name := bytesOf ".whooshrc"

/-- The startup script of a home directory. -/
def rcPath (home : Path) : Path :=
  home.join rcName

/-- The home directory that the startup script is looked for in: what the environment names,
unless that is nothing, else that of the account. -/
def homeDirectory (environment account : Option Path) : Option Path :=
  match environment with
  | some (byte :: rest) => some (byte :: rest)
  | _ => account

/-- Whether a line is one to execute: it is not blank and no comment. -/
def isCommand (line : List Char) : Bool :=
  match line with
  | [] => false
  | char :: _ => char != '#'

/-- The lines to execute of a script, without the blanks around them. -/
def commands (content : List Char) : List String :=
  (((content.splitOnP (· == '\n')).map Text.trim).filter isCommand).map String.ofList

/-- Read a script that is there. -/
def read (machine : Machine) (path : Path) : Except ScriptError (List String) :=
  match machine.read path with
  | .error cause => .error (.io cause)
  | .ok bytes =>
      match Text.decode? bytes with
      | none => .error (.io .notUtf8)
      | some content => .ok (commands content)

/-- Load the script that is asked for, which must be there, or else the one of the home directory,
if there is one. -/
def load (machine : Machine) (asked rc : Option Path) :
    Except ScriptError (Option (List String)) :=
  match asked with
  | some path =>
      if machine.reaches path then (read machine path).map some
      else .error (.notFound path)
  | none =>
      match rc with
      | none => .ok none
      | some path => if machine.reaches path then (read machine path).map some else .ok none

end Script
end CommandShell
