/-
Module: CommandShell.Main
Purpose: The command: arguments, environment and standard streams of the process.
Trusted boundary: reads and writes the streams of the process
Main exports:
  main
-/
import CommandShell.CommandLine
import CommandShell.FileSystem.Layout

namespace CommandShell

/-- Read a stream to its end. -/
partial def readToEnd (stream : IO.FS.Stream) (read : Bytes) : IO Bytes := do
  let chunk ← stream.read 65536
  if chunk.isEmpty then
    return read
  else
    readToEnd stream (read ++ chunk.data.toList)

end CommandShell

open CommandShell in
/-- The shell has its files in memory: at the start there is the home directory and nothing
else. -/
def main (arguments : List String) : IO UInt32 := do
  let home := (← IO.getEnv "HOME").map bytesOf
  let input ← readToEnd (← IO.getStdin) []
  let machine := ({} : Machine).install []
    (home.toList.map fun path => ⟨path, .directory Layout.directoryMode⟩)
  let exit := CommandLine.run ⟨machine, home, none⟩ arguments ⟨input, []⟩
  (← IO.getStdout).write ⟨exit.output.toArray⟩
  (← IO.getStderr).write ⟨exit.error.toArray⟩
  return exit.code.toUInt32
