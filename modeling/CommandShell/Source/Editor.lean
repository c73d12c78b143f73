/-
Module: CommandShell.Source.Editor
Purpose: Lines from a line editor that is not on a terminal.
Trusted boundary: none
Main exports:
  Editor, Editor.next
-/
import CommandShell.Source.Reader

namespace CommandShell

/-- A line editor whose input is not a terminal: it draws nothing, keeps no history and takes the
input line by line.  Lines with `limit` bytes or more are too long. -/
structure Editor where
  limit : Nat
  input : Bytes
deriving Repr, DecidableEq, Inhabited

namespace Editor

/-- A line without the carriage return at its end. -/
def withoutReturn (line : Bytes) : Bytes :=
  if line.getLast? = some 0x0D then line.dropLast else line

/-- Cut the input after its first newline: the line, without its terminator, and the rest.  A
carriage return belongs to the terminator, so it stays where there is no newline. -/
def cutLine (input : Bytes) : Bytes × Bytes :=
  let line := input.takeWhile (· != newline)
  match input.drop line.length with
  | _ :: rest => (withoutReturn line, rest)
  | [] => (line, [])

/-- The next line.  A line that is not UTF-8 is a failure of the editor, and is used up. -/
def next (editor : Editor) : Reading × Editor :=
  if editor.input.isEmpty then
    (.finished, editor)
  else
    let cut := cutLine editor.input
    (match textOf? cut.1 with
      | none => .failed (.readline (.io .notUtf8))
      | some text => if editor.limit ≤ cut.1.length then .overflow else .line text,
      { editor with input := cut.2 })

/-- Cutting off a line takes at least one byte from an input that is not empty. -/
theorem cutLine_length {input : Bytes} (some : input ≠ []) :
    (cutLine input).2.length < input.length := by
  unfold cutLine
  dsimp only
  split
  case h_1 byte rest left =>
    have lengths := congrArg List.length left
    rw [List.length_drop, List.length_cons] at lengths
    show rest.length < input.length
    omega
  case h_2 => exact List.length_pos_iff.mpr some

/-- A reading that promises another one has used up some of the input. -/
theorem size_next (editor : Editor) (more : editor.next.1.continues = true) :
    editor.next.2.input.length < editor.input.length := by
  unfold next at more ⊢
  by_cases empty : editor.input.isEmpty
  case pos =>
    rw [if_pos empty] at more
    cases more
  case neg =>
    rw [if_neg empty]
    exact cutLine_length (by simpa using empty)

end Editor

instance : LineSource Editor where
  next := Editor.next
  showsPrompt _ := true
  size editor := editor.input.length
  size_next := Editor.size_next

end CommandShell
