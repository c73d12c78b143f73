/-
Module: CommandShell.FileSystem.Walk
Purpose: Following a path through directories and links to what it names.
Trusted boundary: none
Main exports:
  Place, Found, Purpose, FileSystem.grants, FileSystem.searchable, FileSystem.descend,
  FileSystem.walk, FileSystem.locate
-/
import CommandShell.FileSystem.Tree
import CommandShell.IoError

namespace CommandShell

/-- A directory to start from: the one `lost` levels below a location that is still there.  A
directory with `lost` levels has been removed: it can be left for its parent, and nothing is in
it. -/
structure Place where
  location : Location := []
  lost : Nat := 0
deriving Repr, DecidableEq, Inhabited

namespace Place

def root : Place := {}

/-- The parent.  The root is its own. -/
def up : Place → Place
  | ⟨location, 0⟩ => ⟨location.dropLast, 0⟩
  | ⟨location, lost + 1⟩ => ⟨location, lost⟩

/-- The same directory after the subtree at `removed` is gone. -/
def afterRemoval (place : Place) (removed : Location) : Place :=
  if removed.isPrefixOf place.location then
    ⟨removed.dropLast, place.lost + (place.location.length - removed.dropLast.length)⟩
  else
    place

end Place

/-- What a path names. -/
inductive Found where
  | directory (place : Place)
  | file (location : Location) (mode : Mode) (content : Content)
  /-- Nothing yet: a name that is free in a directory. -/
  | vacant (directory : Location) (name : Name)
deriving Inhabited

/-- What a path is followed for: to reach what it names, or to open a file that is made if it is
not there. -/
inductive Purpose where
  | reach
  | create
deriving Repr, DecidableEq, Inhabited

namespace FileSystem

/-!
A path is followed name by name.  Between two links the walk is structural in the steps; each
link takes one from a budget and continues with its own steps put before the remaining ones.  So
the walk ends on every file system, also where links go in circles.

`slash` says that the path ends in a slash, so what it names must be a directory.  Where a file
may be made, a last name with a slash after it is refused before it is looked up.

No step is taken from a directory that may not be searched, not even one that stays there.  The
directory that the path ends in needs not be searched for that.
-/

/-- The longest name of an entry, in bytes. -/
def longestName : Nat := 255

/-- The longest path that is followed at all, in bytes. -/
def longestPath : Nat := 4095

/-- How many links one path may lead through. -/
def linkBudget : Nat := 40

/-- Whether a directory grants a right.  It is only by its mode that a directory refuses one, so the
root grants all of them if it has no entry. -/
def grants (files : FileSystem) (location : Location) (right : Mode) : Bool :=
  match files.get? location with
  | some (.directory mode) => mode.has right
  | _ => true

/-- Whether names may be looked up in a directory.  One that has been removed has lost its mode; it
could be searched when it was entered. -/
def searchable (files : FileSystem) (place : Place) : Bool :=
  place.lost ≠ 0 || files.grants place.location Mode.execute

/-- Take steps from a directory.  A link is left to `follow`, with the directory it is in, its
target, and what remains to be done after it. -/
def descend (files : FileSystem) (purpose : Purpose)
    (follow : Place → Path → List Path.Step → Bool → Except SystemError Found) (slash : Bool) :
    Place → List Path.Step → Except SystemError Found
  | place, [] => .ok (.directory place)
  | place, step :: rest =>
      if !files.searchable place then
        .error .denied
      else
        match step with
        | .stay => descend files purpose follow slash place rest
        | .up => descend files purpose follow slash place.up rest
        | .enter name =>
            if rest.isEmpty && slash && purpose == .create then
              .error .isDirectory
            else if place.lost ≠ 0 then
              .error .missing
            else if longestName < name.length then
              .error .nameTooLong
            else
              match files.get? (place.location ++ [name]) with
              | none =>
                  if rest.isEmpty && !slash then .ok (.vacant place.location name)
                  else .error .missing
              | some (.directory _) =>
                  descend files purpose follow slash ⟨place.location ++ [name], 0⟩ rest
              | some (.file mode content) =>
                  if rest.isEmpty && !slash then .ok (.file (place.location ++ [name]) mode content)
                  else .error .notDirectory
              | some (.link target) => follow place target rest slash

/-- Where a path starts. -/
def origin (place : Place) (path : Path) : Place :=
  if path.isAbsolute then Place.root else place

/-- Take steps from a directory, through at most `links` links.  The slash at the end of a link's
target counts if the link is the last name. -/
def walk (files : FileSystem) (purpose : Purpose) :
    Nat → Bool → Place → List Path.Step → Except SystemError Found
  | 0, slash, place, steps =>
      descend files purpose (fun _ _ _ _ => .error .tooManyLinks) slash place steps
  | links + 1, slash, place, steps =>
      descend files purpose
        (fun place target rest slash =>
          walk files purpose links (slash || (rest.isEmpty && target.endsInSlash))
            (origin place target) (target.steps ++ rest))
        slash place steps

/-- What a path names, seen from a directory. -/
def locate (files : FileSystem) (purpose : Purpose) (place : Place) (path : Path) :
    Except IoError Found :=
  if path.contains 0 then
    .error .nulInPath
  else if path.isEmpty then
    .error (.system .missing)
  else if longestPath < path.length then
    .error (.system .nameTooLong)
  else
    match files.walk purpose linkBudget path.endsInSlash (origin place path) path.steps with
    | .ok found => .ok found
    | .error error => .error (.system error)

end FileSystem
end CommandShell
