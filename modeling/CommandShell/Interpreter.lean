/-
Module: CommandShell.Interpreter
Purpose: What the tokens of a command amount to.
Trusted boundary: none
Main exports:
  Builtin.perform, World.runProgram, World.perform
-/
import CommandShell.Launch
import CommandShell.Settings
import CommandShell.World

namespace CommandShell

/-- Show the working directory. -/
def World.printDirectory (world : World) : Effect :=
  match world.machine.workingDirectory with
  | .ok path =>
      { world, printed := bytesOf (shown path ++ "\n"), outcome := .ok .proceed }
  | .error cause => { world, outcome := .error (.currentDirectory cause) }

/-- Go to the directory that is named first, or home if none is named.  A directory that cannot be
entered is named on standard output too. -/
def World.changeDirectory (world : World) (arguments : List String) : Effect :=
  match arguments.head?.map bytesOf <|> world.home with
  | none => { world, outcome := .error .noHome }
  | some target =>
      match world.machine.changeDirectory target with
      | .ok machine =>
          { world := { world with machine }
            outcome := .ok .proceed
            events := [.moved machine.directory] }
      | .error cause =>
          { world
            printed := bytesOf ("Error: " ++ shown target ++ "\n")
            outcome := .error (.changeDirectory (shown target) cause) }

def Builtin.perform (builtin : Builtin) (world : World) (arguments : List String) : Effect :=
  match builtin with
  | .exit => { world, outcome := .ok .exit }
  | .pwd => world.printDirectory
  | .cd => world.changeDirectory arguments
  | .path => { world := { world with searchPath := arguments }, outcome := .ok .proceed }

/-- What follows a launch: a status that is no success is worth a line in the log and nothing
else. -/
def World.afterLaunch (world : World) (command : String) (earlier : List Event)
    (launched : Launch.Launched) : Effect :=
  let world := { world with machine := launched.machine }
  let events := earlier ++ launched.events
  match launched.result with
  | .error error => { world, outcome := .error (.launch error), events }
  | .ok status =>
      { world
        outcome := .ok .proceed
        events := events ++ if status.success then [] else [.unsuccessful command status] }

/-- Run the program that the first word names.  The clause is read first, then the name is looked
up, and only then files are touched. -/
def World.runProgram (world : World) (settings : Settings) (tokens : List String) : Effect :=
  match settings.redirection.parse tokens with
  | .error error => { world, outcome := .error (.clause error) }
  | .ok ⟨[], _⟩ => { world, outcome := .error (.clause .noCommand) }
  | .ok ⟨command :: arguments, targets⟩ =>
      let resolution :=
        SearchPath.resolve world.machine settings.candidateLimit command world.searchPath
      let probes := resolution.probed.map Event.probed
      match resolution.result with
      | .error error => { world, outcome := .error (.resolve error), events := probes }
      | .ok program =>
          let plan : Launch.Plan := { program := bytesOf program, arguments }
          let plan := plan.redirect
            (targets.map fun targets => (bytesOf targets.output, bytesOf targets.error))
          world.afterLaunch command (probes ++ [.resolved command program])
            (plan.run settings.targetMode world.machine)

/-- What a command amounts to.  A built-in command goes before a program of the same name, and
takes a redirection operator like any other argument. -/
def World.perform (world : World) (settings : Settings) (tokens : List String) : Effect :=
  match tokens with
  | [] => { world, outcome := .ok .proceed }
  | name :: arguments =>
      match Builtin.ofName? name with
      | some builtin =>
          let effect := builtin.perform world arguments
          { effect with events := .dispatched builtin :: effect.events }
      | none => world.runProgram settings tokens

end CommandShell
