/-
Module: CommandShell.Machine
Purpose: What the shell finds on the machine it runs on: files, a working directory, programs.
Trusted boundary: none
Main exports:
  Machine, Machine.reaches, Machine.changeDirectory, Machine.openTarget, Machine.append,
  Machine.read, Machine.findProgram
-/
import CommandShell.FileSystem.Walk

namespace CommandShell

/-- The state that operations on files read and change.  `programPath` holds the directories where
the system itself looks for a program that is named without a slash. -/
structure Machine where
  files : FileSystem := {}
  directory : Place := Place.root
  mask : Mode := 0o022
  programPath : List Path := []
deriving Inhabited

namespace Machine

/-- What a path names, seen from the working directory. -/
def reach (machine : Machine) (path : Path) : Except IoError Found :=
  machine.files.locate .reach machine.directory path

/-- Whether the path leads to a file or a directory. -/
def reaches (machine : Machine) (path : Path) : Bool :=
  match machine.reach path with
  | .ok (.directory _) => true
  | .ok (.file ..) => true
  | .ok (.vacant ..) => false
  | .error _ => false

/-- Enter a directory, which must be one that may be searched. -/
def changeDirectory (machine : Machine) (path : Path) : Except IoError Machine :=
  match machine.reach path with
  | .ok (.directory place) =>
      if machine.files.searchable place then .ok { machine with directory := place }
      else .error (.system .denied)
  | .ok (.file ..) => .error (.system .notDirectory)
  | .ok (.vacant ..) => .error (.system .missing)
  | .error error => .error error

/-- The path of the working directory.  One that has been removed has none. -/
def workingDirectory? (machine : Machine) : Option Path :=
  if machine.directory.lost = 0 then some machine.directory.location.path else none

def workingDirectory (machine : Machine) : Except IoError Path :=
  match machine.workingDirectory? with
  | some path => .ok path
  | none => .error (.system .missing)

/-! ### Files -/

/-- The content of a file that may be read. -/
def read (machine : Machine) (path : Path) : Except IoError Bytes :=
  match machine.reach path with
  | .ok (.file _ mode content) =>
      if mode.has Mode.read then .ok content.bytes else .error (.system .denied)
  | .ok (.directory place) =>
      if place.lost ≠ 0 || machine.files.grants place.location Mode.read then
        .error (.system .isDirectory)
      else
        .error (.system .denied)
  | .ok (.vacant ..) => .error (.system .missing)
  | .error error => .error error

/-- Open a file for writing from its start: make it with this mode if it is not there, else empty
it.  A file that is there has to be one that may be written, and else the directory: the mode of a
new file counts from the next time on.  The answer is where the file is, and the machine with the
file empty. -/
def openTarget (machine : Machine) (mode : Mode) (path : Path) :
    Except IoError (Location × Machine) :=
  match machine.files.locate .create machine.directory path with
  | .ok (.directory _) => .error (.system .isDirectory)
  | .ok (.file location old _) =>
      if old.has Mode.write then
        .ok (location, { machine with files := machine.files.put location (.written old []) })
      else
        .error (.system .denied)
  | .ok (.vacant directory name) =>
      if machine.files.grants directory Mode.write then
        .ok (directory ++ [name],
          { machine with
            files := machine.files.put (directory ++ [name])
              (.file (mode.masked machine.mask) (.text [])) })
      else
        .error (.system .denied)
  | .error error => .error error

/-- Write after the end of a file that is there and may be written. -/
def append (machine : Machine) (path : Path) (bytes : Bytes) : Except IoError Machine :=
  match machine.reach path with
  | .ok (.file location mode content) =>
      if mode.has Mode.write then
        .ok { machine with
          files := machine.files.put location (.written mode (content.bytes ++ bytes)) }
      else
        .error (.system .denied)
  | .ok (.directory _) => .error (.system .isDirectory)
  | .ok (.vacant ..) => .error (.system .missing)
  | .error error => .error error

/-- Write into the open file at a location, from an offset on.  What is open stays open, whatever
the file's mode; and to write nothing is not to write. -/
def overwrite (machine : Machine) (location : Location) (offset : Nat) (bytes : Bytes) :
    Machine :=
  match bytes, machine.files.get? location with
  | _ :: _, some (.file mode content) =>
      { machine with
        files := machine.files.put location (.written mode
          (content.bytes.take offset ++ bytes ++ content.bytes.drop (offset + bytes.length))) }
  | _, _ => machine

/-- Take away a node and all below it.  A working directory in there is lost. -/
def remove (machine : Machine) (location : Location) : Machine :=
  { machine with
    files := machine.files.remove location
    directory := machine.directory.afterRemoval location }

/-! ### Programs -/

/-- What a text asks to be run by: a program, and an argument to start it with. -/
structure Interpreter where
  path : Path
  argument : Option Bytes
deriving Repr, DecidableEq, Inhabited

/-- How much of a file the system looks at to see how it is run, in bytes. -/
def viewed : Nat := 256

/-- What the first line of a text names after `#!`: up to a space or a tab an interpreter, and all
the rest between blanks as one argument.  An interpreter that may go on where the system looks no
more is none, and of the argument as much is taken as has been looked at. -/
def interpreter? (bytes : Bytes) : Option Interpreter :=
  let isGap (byte : UInt8) : Bool := byte == 0x20 || byte == 0x09
  let line := ((bytes.take viewed).drop 2).takeWhile fun byte => byte != 0x0A && byte != 0
  let named := line.dropWhile isGap
  let path := named.takeWhile fun byte => !isGap byte
  let rest := ((line.take (viewed - 3)).dropWhile isGap).drop path.length
  let argument := ((rest.dropWhile isGap).reverse.dropWhile isGap).reverse
  if !(bytesOf "#!").isPrefixOf bytes || path.isEmpty then none
  else if line.length = viewed - 2 && named.length = path.length then none
  else some ⟨path, if argument.isEmpty then none else some argument⟩

/-- What runs for a text that is started by a path: its interpreter, with the argument and the path
in front of the other arguments. -/
def Interpreter.running (interpreter : Interpreter) (program : Program) (path : Path) : Program where
  run invocation :=
    program.run { invocation with
      arguments := interpreter.path ::
        (interpreter.argument.toList ++ path :: invocation.arguments.tail) }

/-- How many files the system looks into for one program: texts that ask for the next file, and the
program. -/
def fileBudget : Nat := 6

/-- A file that may be run and is not one of those that are open for writing. -/
def openProgram (machine : Machine) (writing : List Location) (path : Path) :
    Except IoError (Location × Mode × Content) :=
  match machine.reach path with
  | .error error => .error error
  | .ok (.vacant ..) => .error (.system .missing)
  | .ok (.directory _) => .error (.system .denied)
  | .ok (.file location mode content) =>
      if !mode.has Mode.execute then .error (.system .denied)
      else if writing.contains location then .error (.system .busy)
      else .ok (location, mode, content)

/-- The program that runs for the file that a path names, if the system looks into so many files.  A
text is run by the interpreter that it asks for, which may be such a text again. -/
def programWithin (machine : Machine) (writing : List Location) :
    Nat → Path → Except IoError (Location × Program)
  | 0, path =>
      match machine.openProgram writing path with
      | .error error => .error error
      | .ok _ => .error (.system .tooManyLinks)
  | files + 1, path =>
      match machine.openProgram writing path with
      | .error error => .error error
      | .ok (location, mode, .program program) =>
          .ok (location, program.opened (mode.has Mode.read))
      | .ok (location, _, .text bytes) =>
          match interpreter? bytes with
          | none => .error (.system .notExecutable)
          | some interpreter =>
              match machine.programWithin writing files interpreter.path with
              | .error error => .error error
              | .ok (_, program) => .ok (location, interpreter.running program path)

/-- The program that runs for the file that a path names. -/
def programAt (machine : Machine) (writing : List Location) (path : Path) :
    Except IoError (Location × Program) :=
  machine.programWithin writing fileBudget path

/-- A program that the system found: the path it is started by, the file it is in. -/
structure Executable where
  path : Path
  location : Location
  program : Program
deriving Inhabited

/-- Look for a program in directories, in order.  Being absent, below a file or not allowed to
run lets the search go on; `denied` says that the last has happened, and is then the answer in
the end. -/
def searchProgram (machine : Machine) (writing : List Location) (name : Name) (denied : Bool)
    (last : IoError) : List Path → Except IoError Executable
  | [] => .error (if denied then .system .denied else last)
  | directory :: rest =>
      let path := if directory.isEmpty then name else directory ++ Path.slash :: name
      match machine.programAt writing path with
      | .ok (location, program) => .ok ⟨path, location, program⟩
      | .error (.system .denied) =>
          machine.searchProgram writing name true (.system .denied) rest
      | .error (.system .missing) =>
          machine.searchProgram writing name denied (.system .missing) rest
      | .error (.system .notDirectory) =>
          machine.searchProgram writing name denied (.system .notDirectory) rest
      | .error error => .error error

/-- The program that a path starts.  Only a path without a slash is looked for in the directories
of the system. -/
def findProgram (machine : Machine) (writing : List Location) (path : Path) :
    Except IoError Executable :=
  if path.contains Path.slash then
    match machine.programAt writing path with
    | .ok (location, program) => .ok ⟨path, location, program⟩
    | .error error => .error error
  else if path.isEmpty then
    .error (.system .missing)
  else
    machine.searchProgram writing path false (.system .missing) machine.programPath

end Machine
end CommandShell
