/-
Module: CommandShell.Launch
Purpose: Connecting the streams of a program to files and running it.
Trusted boundary: none
Main exports:
  Launch.Setup, Launch.Plan, Launch.Wiring, Launch.openTargets, Launch.deliver, Launch.Plan.run
-/
import CommandShell.Event
import CommandShell.Machine

namespace CommandShell
namespace Launch

/-- One output stream to be connected to a file. -/
structure Setup where
  stream : Stream
  path : Path
deriving Repr, DecidableEq, Inhabited

/-- All that is needed to run a program.  The path of the program is also its first argument. -/
structure Plan where
  program : Path
  arguments : List String
  setups : List Setup := []
deriving Repr, DecidableEq, Inhabited

namespace Plan

/-- Connect both streams, standard output first; no targets, no change. -/
def redirect (plan : Plan) (targets : Option (Path × Path)) : Plan :=
  match targets with
  | none => plan
  | some (output, error) =>
      { plan with setups := plan.setups ++ [⟨.output, output⟩, ⟨.error, error⟩] }

/-- The first file that standard error is to be connected to. -/
def errorTarget? (plan : Plan) : Option Path :=
  (plan.setups.find? fun setup => setup.stream = .error).map Setup.path

end Plan

/-- A file that is open for writing. -/
structure OpenFile where
  path : Path
  location : Location
deriving Repr, DecidableEq, Inhabited

/-- The files that the streams of a program are connected to.  A stream without a file is shared
with the shell. -/
structure Wiring where
  output : Option OpenFile := none
  error : Option OpenFile := none
deriving Repr, DecidableEq, Inhabited

namespace Wiring

def file? (wiring : Wiring) : Stream → Option OpenFile
  | .output => wiring.output
  | .error => wiring.error

/-- Connect a stream.  The file it was connected to before is closed. -/
def connect (wiring : Wiring) (stream : Stream) (file : OpenFile) : Wiring :=
  match stream with
  | .output => { wiring with output := some file }
  | .error => { wiring with error := some file }

/-- Where files are open for writing. -/
def locations (wiring : Wiring) : List Location :=
  wiring.output.toList.map OpenFile.location ++ wiring.error.toList.map OpenFile.location

end Wiring

/-- The machine after targets have been opened, the connections made, and the target that could
not be opened, if there is one. -/
structure Opening where
  machine : Machine
  wiring : Wiring
  failure : Option (Path × IoError)
deriving Inhabited

/-- Open targets one at a time, each on the files that the ones before have left.  The first that
cannot be opened ends it; those before it stay as they are. -/
def openTargets (mode : Mode) (machine : Machine) (wiring : Wiring) : List Setup → Opening
  | [] => ⟨machine, wiring, none⟩
  | setup :: rest =>
      match machine.openTarget mode setup.path with
      | .error cause => ⟨machine, wiring, some (setup.path, cause)⟩
      | .ok (location, machine) =>
          openTargets mode machine (wiring.connect setup.stream ⟨setup.path, location⟩) rest

/-- The machine after a program has written, and the events of what went to shared streams. -/
structure Delivery where
  machine : Machine
  events : List Event
deriving Inhabited

/-- Carry out the writes of a program.  Each stream that is connected to a file has an offset of
its own in it, so two streams in one file write over each other. -/
def deliver (wiring : Wiring) (machine : Machine) (offset : Stream → Nat) :
    List (Stream × Bytes) → Delivery
  | [] => ⟨machine, []⟩
  | (stream, bytes) :: rest =>
      match wiring.file? stream with
      | some file =>
          deliver wiring (machine.overwrite file.location (offset stream) bytes)
            (fun other => if other = stream then offset stream + bytes.length else offset other)
            rest
      | none =>
          let later := deliver wiring machine offset rest
          { later with events := .programWrote stream bytes :: later.events }

/-- The program to start.  A path or an argument that holds the byte which ends them cannot be
handed to the system. -/
def Plan.find (plan : Plan) (machine : Machine) (wiring : Wiring) :
    Except IoError Machine.Executable :=
  if plan.program.contains 0 || plan.arguments.any fun text => (bytesOf text).contains 0 then
    .error .nulInArgument
  else
    machine.findProgram wiring.locations plan.program

/-- What a program is started with. -/
def Plan.invocation (plan : Plan) (machine : Machine) (executable : Machine.Executable) :
    Invocation :=
  ⟨executable.path :: plan.arguments.map bytesOf, machine.workingDirectory?⟩

/-- The attempt that a plan makes once its targets are open. -/
def Plan.attempt (plan : Plan) (wiring : Wiring) : Attempt :=
  ⟨plan.program, plan.arguments, wiring.output.map OpenFile.path, wiring.error.map OpenFile.path⟩

/-- A launch: the machine after it, how it ended, and what happened. -/
structure Launched where
  machine : Machine
  result : Except LaunchError Status
  events : List Event
deriving Inhabited

/-- What a program that cannot be started counts as if its error stream is redirected. -/
def notStarted : Status := .exited 1

/-- Open the targets, start the program and wait for its end.  If the program cannot be started
and its error stream is redirected, the diagnostic goes to that stream's file and the launch
counts as a program that ended with a status of its own. -/
def Plan.run (plan : Plan) (mode : Mode) (machine : Machine) : Launched :=
  let opening := openTargets mode machine {} plan.setups
  match opening.failure with
  | some (path, cause) => ⟨opening.machine, .error (.redirect path cause), []⟩
  | none =>
      let attempted := Event.attempted (plan.attempt opening.wiring)
      match plan.find opening.machine opening.wiring with
      | .ok executable =>
          let behaviour := executable.program.run (plan.invocation opening.machine executable)
          let delivery := deliver opening.wiring opening.machine (fun _ => 0) behaviour.writes
          ⟨delivery.machine, .ok behaviour.status,
            attempted :: .started plan.program executable.location :: delivery.events ++
              [.ended plan.program behaviour.status]⟩
      | .error cause =>
          match plan.errorTarget? with
          | none => ⟨opening.machine, .error (.start plan.program cause), [attempted]⟩
          | some target =>
              let diverted := Event.diverted plan.program cause
              match opening.machine.append target diagnostic with
              | .ok machine => ⟨machine, .ok notStarted, [attempted, diverted]⟩
              | .error cause =>
                  ⟨opening.machine, .error (.redirect target cause), [attempted, diverted]⟩

end Launch
end CommandShell
