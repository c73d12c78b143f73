/-
Module: CommandShell.Source.Scripted
Purpose: A source whose answers are known beforehand.
Trusted boundary: none
Main exports:
  ScriptedSource, ScriptedSource.showsPrompt_after
-/
import CommandShell.Source

namespace CommandShell

/-- A source that gives these answers, in order, and has then finished. -/
structure ScriptedSource where
  showsPrompt : Bool := false
  answers : List Reading
deriving Repr, DecidableEq, Inhabited

def ScriptedSource.next (source : ScriptedSource) : Reading × ScriptedSource :=
  match source.answers with
  | [] => (.finished, source)
  | answer :: rest => (answer, { source with answers := rest })

instance : LineSource ScriptedSource where
  next := ScriptedSource.next
  showsPrompt := ScriptedSource.showsPrompt
  size source := source.answers.length
  size_next source more := by
    rcases source with ⟨shows, _ | ⟨answer, rest⟩⟩
    · cases more
    · exact Nat.lt_succ_self _

/-- A source whose answers are known beforehand does not change its mind about prompts. -/
theorem ScriptedSource.showsPrompt_after (source : ScriptedSource) (count : Nat) :
    LineSource.showsPrompt (LineSource.after count source) = source.showsPrompt := by
  induction count generalizing source with
  | zero => rfl
  | succ count ih =>
      rw [LineSource.after, ih]
      rcases source with ⟨shows, _ | ⟨answer, rest⟩⟩ <;> rfl

end CommandShell
