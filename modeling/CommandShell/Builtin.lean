/-
Module: CommandShell.Builtin
Purpose: The vocabulary of built-in commands.
Trusted boundary: none
Main exports:
  Builtin, Builtin.name, Builtin.ofName?, Builtin.ofName?_eq_some_iff
-/
namespace CommandShell

/-- The commands that the shell itself carries out. -/
inductive Builtin where
  | exit
  | pwd
  | cd
  | path
deriving Repr, DecidableEq, Inhabited

namespace Builtin

def all : List Builtin := [.exit, .pwd, .cd, .path]

def name : Builtin → String
  | .exit => "exit"
  | .pwd => "pwd"
  | .cd => "cd"
  | .path => "path"

/-- Only the exact name calls a built-in command. -/
def ofName? (name : String) : Option Builtin :=
  all.find? fun builtin => builtin.name == name

/-- A built-in command answers to its own name and to no other. -/
theorem ofName?_eq_some_iff {text : String} {builtin : Builtin} :
    ofName? text = some builtin ↔ text = builtin.name := by
  constructor
  · intro found
    have named := List.find?_some found
    exact (eq_of_beq named).symm
  · rintro rfl
    cases builtin <;> decide

end Builtin

end CommandShell
