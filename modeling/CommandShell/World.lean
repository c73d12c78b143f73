/-
Module: CommandShell.World
Purpose: What commands read and change, and what a command amounts to.
Trusted boundary: none
Main exports:
  World, Flow, Effect
-/
import CommandShell.Event
import CommandShell.Machine

namespace CommandShell

/-- The machine, and what a session keeps between commands. -/
structure World where
  machine : Machine := {}
  searchPath : SearchPath := SearchPath.standard
  home : Option Path := none
deriving Inhabited

/-- What a session does after a command. -/
inductive Flow where
  | proceed
  | exit
deriving Repr, DecidableEq, Inhabited

/-- What a command amounts to, whoever looks on: the world after it, what it has to print, and
how it ends once that is printed. -/
structure Effect where
  world : World
  printed : Bytes := []
  outcome : Except CommandError Flow
  events : List Event := []
deriving Inhabited

end CommandShell
