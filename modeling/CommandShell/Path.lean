/-
Module: CommandShell.Path
Purpose: Paths, the names in them, and the steps they take through directories.
Trusted boundary: none
Main exports:
  Name, Path, Path.Step, Path.steps, Path.join
-/
import CommandShell.Text.Utf8

namespace CommandShell

/-- The name of an entry in a directory. -/
abbrev Name := Bytes

/-- A path as it is handed to the system: any bytes, UTF-8 or not. -/
abbrev Path := Bytes

namespace Path

/-- The byte between the names of a path. -/
def slash : UInt8 := 0x2F

/-- One component of a path: stay in the directory, leave it for its parent, or go to the entry
of this name. -/
inductive Step where
  | stay
  | up
  | enter (name : Name)
deriving Repr, DecidableEq

def Step.ofName (name : Name) : Step :=
  if name = bytesOf "." then .stay
  else if name = bytesOf ".." then .up
  else .enter name

/-- The steps of a path.  Repeated slashes count as one. -/
def steps (path : Path) : List Step :=
  ((path.splitOnP (· == slash)).filter fun name => !name.isEmpty).map Step.ofName

/-- Whether the path starts from the root and not from the working directory. -/
def isAbsolute (path : Path) : Bool :=
  path.head? == some slash

/-- Whether the path can only mean a directory. -/
def endsInSlash (path : Path) : Bool :=
  path.getLast? == some slash

/-- The path of an entry in a directory.  The path of the directory keeps a slash it ends in, and
the empty one stands for the working directory. -/
def join (directory : Path) (name : Name) : Path :=
  if directory.isEmpty || directory.endsInSlash then directory ++ name
  else directory ++ slash :: name

end Path

/-- The names from the root down to a node, no links among them. -/
abbrev Location := List Name

/-- The path of a location. -/
def Location.path (location : Location) : Path :=
  if location.isEmpty then [Path.slash] else location.flatMap (Path.slash :: ·)

end CommandShell
