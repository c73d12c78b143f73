import CommandShell.Text.Utf8
import CommandShell.Text.Blank
import CommandShell.Token
import CommandShell.Redirection
import CommandShell.IoError
import CommandShell.Path
import CommandShell.Program
import CommandShell.FileSystem.Mode
import CommandShell.FileSystem.Tree
import CommandShell.FileSystem.Walk
import CommandShell.FileSystem.Changes
import CommandShell.Machine
import CommandShell.SearchPath
import CommandShell.Failure
import CommandShell.Source
import CommandShell.Source.Reader
import CommandShell.Source.Editor
import CommandShell.Source.Scripted
import CommandShell.Settings
import CommandShell.Sink
import CommandShell.Builtin
import CommandShell.Event
import CommandShell.Launch
import CommandShell.World
import CommandShell.Interpreter
import CommandShell.Session
import CommandShell.Options
import CommandShell.Script
import CommandShell.CommandLine
import CommandShell.FileSystem.Layout
import CommandShell.Main
import CommandShell.Proofs.Tokens
import CommandShell.Proofs.Clause
import CommandShell.Proofs.Candidates
import CommandShell.Proofs.CommandCases
import CommandShell.Proofs.StartedProgram
import CommandShell.Proofs.OpenedTarget
import CommandShell.Proofs.CommandFailures
import CommandShell.Proofs.Turn
import CommandShell.Proofs.LineStream
import CommandShell.Proofs.StartupLines
import CommandShell.Proofs.History
import CommandShell.Proofs.Diagnostics
import CommandShell.Proofs.ExecutedLines
import CommandShell.Proofs.CarriedState
import CommandShell.Proofs.BeforeLaunch
import CommandShell.Proofs.Prompts
import CommandShell.Proofs.ExitLine
import CommandShell.Proofs.StartedFile
import CommandShell.Proofs.ProgramPath
import CommandShell.Proofs.Resemblance
import CommandShell.Proofs.Delivery
import CommandShell.Proofs.ErrorStream
import CommandShell.Proofs.QuietMode
import CommandShell.Proofs.LostOutput
import CommandShell.Proofs.OutputStream
import CommandShell.Proofs.EditorLines
import CommandShell.Proofs.Dispatch
import CommandShell.Proofs.ExitCode
import CommandShell.Proofs.FlushOrder
import CommandShell.Proofs.ScriptLines
import CommandShell.Proofs.Refusals
import CommandShell.Proofs.Resolution
import CommandShell.Proofs.TargetSequence
import CommandShell.Proofs.LaunchOrder
import CommandShell.Proofs.ErrorTarget
import CommandShell.Proofs.OptionItems
import CommandShell.Proofs.Spacing
import CommandShell.Proofs.BaseNames
import CommandShell.Proofs.ProgramOutput
import CommandShell.Proofs.ReadingRounds
import CommandShell.Proofs.Termination
import CommandShell.Proofs.LoadedLines
import CommandShell.Proofs.CauseChain
