/-
Module: CommandShell.FileSystem.Mode
Purpose: The permission bits of a file, and what becomes of them when it is made or written.
Trusted boundary: none
Main exports:
  Mode, Mode.has, Mode.masked, Mode.afterWrite
-/
namespace CommandShell

/-- Permission bits.  Every file and directory belongs to the account that the shell runs for, so
what may be done with it is up to the owner's bits alone. -/
abbrev Mode := UInt32

namespace Mode

/-- All the bits that a file can have. -/
def all : Mode := 0o7777

/-- The owner may read the file, or list the directory. -/
def read : Mode := 0o400

/-- The owner may write the file, or make entries in the directory. -/
def write : Mode := 0o200

/-- The owner may run the file, or look up names in the directory. -/
def execute : Mode := 0o100

/-- The group may run the file. -/
def groupExecute : Mode := 0o010

/-- Who runs the file gets the rights of its owner. -/
def lendsOwner : Mode := 0o4000

/-- Who runs the file gets the rights of its group. -/
def lendsGroup : Mode := 0o2000

/-- Whether a bit is set. -/
def has (mode bit : Mode) : Bool :=
  mode &&& bit != 0

/-- The mode of a new file: of the bits asked for, those that a file can have and that the mask
does not hold back. -/
def masked (mode mask : Mode) : Mode :=
  mode &&& all &&& ~~~mask

/-- The mode of a file after its content has changed.  What has been written must not run with
rights that were lent to what was there before, so these bits go.  A group that may not run the
file borrows nothing, and then its bit stays. -/
def afterWrite (mode : Mode) : Mode :=
  let kept := mode &&& ~~~lendsOwner
  if mode.has groupExecute then kept &&& ~~~lendsGroup else kept

end Mode
end CommandShell
