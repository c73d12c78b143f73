/-
Module: CommandShell.FileSystem.Tree
Purpose: The nodes of a file system and the map from locations to them.
Trusted boundary: none
Main exports:
  Content, Node, Node.written, FileSystem, FileSystem.get?, FileSystem.put, FileSystem.remove
-/
import CommandShell.FileSystem.Mode
import CommandShell.Program

namespace CommandShell

/-- What a file holds: bytes, or a program that the system can run. -/
inductive Content where
  | text (bytes : Bytes)
  | program (program : Program)
deriving Inhabited

/-- The bytes to be read from a file.  A program's own bytes are nobody's concern here. -/
def Content.bytes : Content → Bytes
  | .text bytes => bytes
  | .program _ => []

inductive Node where
  | directory (mode : Mode)
  | file (mode : Mode) (content : Content)
  | link (target : Path)
deriving Inhabited

/-- A file of this mode after it has been written, so that it holds these bytes. -/
def Node.written (mode : Mode) (bytes : Bytes) : Node :=
  .file mode.afterWrite (.text bytes)

/-!
A file system is a map from locations to nodes.  The root is always a directory and needs no
entry.  Nothing asks that the parent of an entry be a directory: a lookup that goes through the
parent finds out.
-/

structure FileSystem where
  entries : List (Location × Node) := []
deriving Inhabited

namespace FileSystem

/-- The node at a location, no link followed. -/
def get? (files : FileSystem) (location : Location) : Option Node :=
  files.entries.lookup location

/-- Make the node at a location this one. -/
def put (files : FileSystem) (location : Location) (node : Node) : FileSystem :=
  ⟨(location, node) :: files.entries.filter fun entry => entry.1 != location⟩

/-- Take away the node at a location and all that is below it. -/
def remove (files : FileSystem) (location : Location) : FileSystem :=
  ⟨files.entries.filter fun entry => !location.isPrefixOf entry.1⟩

private theorem lookup_filter_ne {entries : List (Location × Node)} {location other : Location}
    (different : other ≠ location) :
    (entries.filter fun entry => entry.1 != location).lookup other = entries.lookup other := by
  induction entries with
  | nil => rfl
  | cons entry entries ih =>
      by_cases here : entry.1 = location
      · have skipped : (other == entry.1) = false := by simp [here, different]
        rw [List.filter_cons_of_neg (by simp [here]), List.lookup_cons, skipped]
        exact ih
      · rw [List.filter_cons_of_pos (by simp [here]), List.lookup_cons, List.lookup_cons, ih]

/-- What is found after a node has been put: the node at its location, what was there before at all
others. -/
theorem get?_put (files : FileSystem) (location other : Location) (node : Node) :
    (files.put location node).get? other =
      if other = location then some node else files.get? other := by
  by_cases same : other = location
  · simp [get?, put, same]
  · have skipped : (other == location) = false := by simp [same]
    simp only [get?, put, if_neg same]
    rw [List.lookup_cons, skipped]
    exact lookup_filter_ne same

end FileSystem
end CommandShell
