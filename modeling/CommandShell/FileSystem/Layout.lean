/-
Module: CommandShell.FileSystem.Layout
Purpose: Setting up the files of a machine, entry by entry.
Trusted boundary: none
Main exports:
  Layout.Entry, FileSystem.install, Machine.install, Machine.removePath
-/
import CommandShell.Machine

namespace CommandShell

/-- A node to be set up at a path. -/
structure Layout.Entry where
  path : Path
  node : Node
deriving Inhabited

/-- The mode of directories that are made on the way to an entry. -/
def Layout.directoryMode : Mode := 0o755

/-- Set up a node, starting from a directory.  Missing directories on the way are made; a way that
leads through a file changes nothing. -/
def FileSystem.install (files : FileSystem) (node : Node) :
    Location → List Path.Step → FileSystem
  | _, [] => files
  | directory, .stay :: rest => files.install node directory rest
  | directory, .up :: rest => files.install node directory.dropLast rest
  | directory, [.enter name] => files.put (directory ++ [name]) node
  | directory, .enter name :: rest =>
      match files.walk .reach linkBudget false ⟨directory, 0⟩ [.enter name] with
      | .ok (.directory place) => files.install node place.location rest
      | .ok (.vacant parent name) =>
          (files.put (parent ++ [name]) (.directory Layout.directoryMode)).install node
            (parent ++ [name]) rest
      | _ => files

/-- Set up entries, in order, below a directory. -/
def Machine.install (machine : Machine) (directory : Location) (entries : List Layout.Entry) :
    Machine :=
  { machine with
    files := entries.foldl (fun files entry => files.install entry.node directory entry.path.steps)
      machine.files }

/-- Take away what a path below a directory names, with all that is in it.  A link at its end is
taken away itself. -/
def Machine.removePath (machine : Machine) (directory : Location) (path : Path) : Machine :=
  match path.steps.getLast? with
  | some (.enter name) =>
      match machine.files.walk .reach FileSystem.linkBudget false ⟨directory, 0⟩
          path.steps.dropLast with
      | .ok (.directory place) => machine.remove (place.location ++ [name])
      | _ => machine
  | _ => machine

end CommandShell
