/-
Module: CommandShell.FileSystem.Changes
Purpose: What is new or different in a file system, compared with an earlier one.
Trusted boundary: none
Main exports:
  Look, Node.look, Change, FileSystem.changes
-/
import CommandShell.FileSystem.Tree

namespace CommandShell

/-- What can be seen of a node: its kind, its mode, and its bytes or target.  All programs look
alike, and a file that may not be read looks empty. -/
inductive Look where
  | directory (mode : Mode)
  | file (mode : Mode) (bytes : Bytes)
  | program (mode : Mode)
  | link (target : Path)
deriving Repr, DecidableEq, Inhabited

def Node.look : Node → Look
  | .directory mode => .directory mode
  | .file mode content =>
      if mode.has Mode.read then
        match content with
        | .text bytes => .file mode bytes
        | .program _ => .program mode
      else
        .file mode []
  | .link target => .link target

/-- A node that is new or looks different, with its path below the observed directory. -/
structure Change where
  path : Path
  look : Look
deriving Repr, DecidableEq, Inhabited

/-- The path of a location below a directory, without a slash in front. -/
def Location.below (directory location : Location) : Option Path :=
  if directory.isPrefixOf location && directory.length < location.length then
    some (Location.path (location.drop directory.length)).tail
  else
    none

namespace FileSystem

/-- The difference that one entry makes, if it is below the directory and makes one. -/
def change? (before : FileSystem) (directory : Location) (entry : Location × Node) :
    Option Change :=
  match Location.below directory entry.1 with
  | none => none
  | some path =>
      if (before.get? entry.1).map Node.look = some entry.2.look then none
      else some ⟨path, entry.2.look⟩

/-- All that is new or looks different below a directory, in the order of the paths. -/
def changes (before after : FileSystem) (directory : Location) : List Change :=
  (after.entries.filterMap (before.change? directory)).mergeSort fun one other =>
    one.path ≤ other.path

end FileSystem
end CommandShell
