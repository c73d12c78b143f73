/-
Module: CommandShell.SearchPath
Purpose: Finding the program of a command in the directories of the search path.
Trusted boundary: none
Main exports:
  SearchPath, ResolveError, SearchPath.standard, SearchPath.candidate, SearchPath.Resolution,
  SearchPath.resolve
-/
import CommandShell.Machine

namespace CommandShell

/-- Directories, in the order they are tried. -/
abbrev SearchPath := List String

/-- Why the name of a command leads to no program. -/
inductive ResolveError where
  | notFound (name : String)
  /-- The candidate is longer than candidates may be. -/
  | tooLong (candidate : String)
deriving Repr, DecidableEq, Inhabited

def ResolveError.message : ResolveError → String
  | .notFound name => s!"command not found: {name}"
  | .tooLong candidate => s!"candidate path too long: {candidate}"

namespace SearchPath

/-!
The first candidate that exists wins, whatever it is: whether it can be run shows when it is
started.  A candidate that is too long ends the search, unless an earlier one has won.
-/

/-- The search path that a session starts with if nothing else is asked for. -/
def standard : SearchPath := ["/bin"]

/-- The path where a directory would hold the command.  The empty directory stands for the working
directory. -/
def candidate (directory name : String) : String :=
  if directory.isEmpty || directory.toList.getLast? == some '/' then directory ++ name
  else directory ++ "/" ++ name

/-- How a search ended, and the candidates that were looked at. -/
structure Resolution where
  result : Except ResolveError String
  probed : List String
deriving Inhabited

/-- Look for a command.  Candidates may have up to `limit` bytes. -/
def resolve (machine : Machine) (limit : Nat) (name : String) : SearchPath → Resolution
  | [] => ⟨.error (.notFound name), []⟩
  | directory :: rest =>
      let path := candidate directory name
      if limit < path.utf8ByteSize then
        ⟨.error (.tooLong path), []⟩
      else if machine.reaches (bytesOf path) then
        ⟨.ok path, [path]⟩
      else
        let later := resolve machine limit name rest
        { later with probed := path :: later.probed }

end SearchPath
end CommandShell
