/-
Module: CommandShell.Proofs.EditorLines
Purpose: A line editor that is not on a terminal answers as a reader does.
Trusted boundary: none
Main exports:
  unfinished, bytesOf_lines, Editor.next_terminated, Editor.next_unfinished, Editor.Tame,
  Editor.lineStream_simulation, Editor.readings_eq_reader
-/
import CommandShell.Proofs.StartupLines
import CommandShell.Source.Editor

namespace CommandShell

/-!
A reader counts bytes while it looks for a newline, and throws away what is too much.  An editor
takes a whole line, strips its terminator, and counts what is left.  On text the two agree, unless a
carriage return is part of a terminator or the input ends inside of a line that is too long.
-/

/-- What follows the last newline. -/
def unfinished (input : Bytes) : Bytes :=
  (input.reverse.takeWhile (· != newline)).reverse

theorem unfinished_of_not_mem {input : Bytes} (single : newline ∉ input) :
    unfinished input = input := by
  have backwards : newline ∉ input.reverse := fun member => single (List.mem_reverse.mp member)
  rw [unfinished, takeWhile_ne_newline_self backwards, List.reverse_reverse]

/-- What comes before a newline does not matter to what follows the last one. -/
theorem unfinished_append (line rest : Bytes) :
    unfinished (line ++ newline :: rest) = unfinished rest := by
  have stops : (newline :: line.reverse).takeWhile (· != newline) = [] :=
    List.takeWhile_cons_of_neg (by simp)
  rw [unfinished, unfinished, List.reverse_append, List.reverse_cons, List.append_assoc,
    List.singleton_append, List.takeWhile_append, stops, List.append_nil]
  split
  case isTrue whole => rw [(List.takeWhile_prefix _).eq_of_length whole]
  case isFalse => rfl

/-- Text is a single line, or a line with its newline and then more text. -/
theorem bytesOf_lines (text : String) :
    newline ∉ bytesOf text ∨ ∃ line rest : String,
      newline ∉ bytesOf line ∧ bytesOf text = bytesOf line ++ newline :: bytesOf rest := by
  have single : ∀ line : String, '\n' ∉ line.toList → newline ∉ bytesOf line := by
    intro line plain member
    exact ne_newline_of_mem_bytesOf plain newline member rfl
  by_cases several : '\n' ∈ text.toList
  case neg => exact .inl (single text several)
  case pos =>
    obtain ⟨line, rest, parts, plain⟩ := List.eq_append_cons_of_mem several
    refine .inr ⟨String.ofList line, String.ofList rest, ?_, ?_⟩
    · exact single _ (by rwa [String.toList_ofList])
    · rw [bytesOf, bytesOf, bytesOf, parts, String.toList_ofList, String.toList_ofList]
      simp only [Text.encode, List.flatMap_append, List.flatMap_cons]
      rfl

namespace Editor

/-- A line that ends in a newline is cut off there and loses its terminator. -/
theorem cutLine_terminated {line : Bytes} (single : newline ∉ line) (rest : Bytes) :
    cutLine (line ++ newline :: rest) = (withoutReturn line, rest) := by
  have first : (line ++ newline :: rest).takeWhile (· != newline) = line := by
    rw [takeWhile_ne_newline single, List.takeWhile_cons_of_neg (by simp), List.append_nil]
  rw [cutLine, first, List.drop_left]

/-- Input without a newline is one line, as it is. -/
theorem cutLine_of_not_mem {line : Bytes} (single : newline ∉ line) :
    cutLine line = (line, []) := by
  rw [cutLine, takeWhile_ne_newline_self single, List.drop_length]

/-- A line of text that ends in a newline alone is answered by its length. -/
theorem next_terminated {limit : Nat} {line : String} (single : newline ∉ bytesOf line)
    (bare : (bytesOf line).getLast? ≠ some 0x0D) (rest : Bytes) :
    next ⟨limit, bytesOf line ++ newline :: rest⟩ =
      (if (bytesOf line).length < limit then .line line else .overflow, ⟨limit, rest⟩) := by
  have some : (bytesOf line ++ newline :: rest).isEmpty = false := by simp
  have kept : withoutReturn (bytesOf line) = bytesOf line := if_neg bare
  rw [next]
  dsimp only
  rw [some, if_neg Bool.false_ne_true, cutLine_terminated single, kept, textOf?_bytesOf]
  dsimp only
  split
  case isTrue long => rw [if_neg (Nat.not_lt_of_le long)]
  case isFalse short => rw [if_pos (Nat.lt_of_not_le short)]

/-- Text that ends without a newline is answered as the last line. -/
theorem next_unfinished {limit : Nat} {line : String} (single : newline ∉ bytesOf line)
    (short : (bytesOf line).length < limit) :
    next ⟨limit, bytesOf line⟩ =
      (if (bytesOf line).isEmpty then .finished else .line line, ⟨limit, []⟩) := by
  rw [next]
  dsimp only
  split
  case isTrue empty => rw [List.isEmpty_iff.mp empty]
  case isFalse some =>
    rw [cutLine_of_not_mem single, textOf?_bytesOf]
    dsimp only
    rw [if_neg (Nat.not_le_of_lt short)]

/-- Input on which an editor and a reader agree: text in which no carriage return comes right before
a newline, and whose last line is short enough if no newline ends it. -/
structure Tame (limit : Nat) (input : Bytes) : Prop where
  text : ∃ text, input = bytesOf text
  bare : ¬ [0x0D, newline] <:+: input
  short : (unfinished input).length < limit

/-- What is left of such input after a line is such input. -/
theorem Tame.rest {limit : Nat} {line : Bytes} {rest : String}
    (tame : Tame limit (line ++ newline :: bytesOf rest)) : Tame limit (bytesOf rest) where
  text := ⟨rest, rfl⟩
  bare := by
    intro inside
    apply tame.bare
    have later : bytesOf rest <:+ line ++ newline :: bytesOf rest :=
      (List.suffix_cons newline (bytesOf rest)).trans (List.suffix_append line _)
    exact inside.trans later.isInfix
  short := by
    rw [← unfinished_append line]
    exact tame.short

/-- A line of such input does not end in a carriage return, so its terminator is the newline
alone. -/
theorem Tame.getLast?_ne {limit : Nat} {line rest : Bytes}
    (tame : Tame limit (line ++ newline :: rest)) : line.getLast? ≠ some 0x0D := by
  intro last
  obtain ⟨start, rfl⟩ := List.getLast?_eq_some_iff.mp last
  apply tame.bare
  exact ⟨start, rest, by simp⟩

/-- On such input an editor and the reference for readers give one answer, which is no failure, and
leave the same rest. -/
theorem next_eq_lineStream {limit : Nat} {input : Bytes} (tame : Tame limit input) :
    ∃ reading rest, next ⟨limit, input⟩ = (reading, ⟨limit, rest⟩) ∧
      LineStream.next ⟨limit, input.map .byte⟩ = (reading, ⟨limit, rest.map .byte⟩) ∧
      Tame limit rest ∧
      ((∃ line, reading = .line line) ∨ reading = .overflow ∨ reading = .finished) := by
  obtain ⟨text, rfl⟩ := tame.text
  rcases bytesOf_lines text with single | ⟨line, rest, single, parts⟩
  · have short : (bytesOf text).length < limit := by
      rw [← unfinished_of_not_mem single]
      exact tame.short
    have plain : ∀ byte ∈ bytesOf text, byte ≠ newline := by
      rintro byte member rfl
      exact single member
    have whole : cut ((bytesOf text).map .byte) = ⟨bytesOf text, .ended, []⟩ := by
      rw [← List.append_nil ((bytesOf text).map _), cut_append plain]
      simp [cut, Cut.after]
    have brief : (Cut.mk (bytesOf text) .ended []).content.length < limit := short
    refine ⟨if (bytesOf text).isEmpty then .finished else .line text, [],
      next_unfinished single short, ?_, ?_, ?_⟩
    · rw [LineStream.next, whole, Cut.answer_of_lt brief, shown_bytesOf]
      rfl
    · exact ⟨⟨"", rfl⟩, by simp, Nat.lt_of_le_of_lt (Nat.zero_le _) short⟩
    · split
      · exact .inr (.inr rfl)
      · exact .inl ⟨text, rfl⟩
  · rw [parts] at tame ⊢
    have items : (bytesOf line ++ newline :: bytesOf rest).map Item.byte =
        terminated (bytesOf line) ++ (bytesOf rest).map .byte := by
      simp [terminated]
    refine ⟨_, bytesOf rest, next_terminated single tame.getLast?_ne _, ?_, tame.rest, ?_⟩
    · rw [items, LineStream.next_terminated single, shown_bytesOf]
    · split
      · exact .inl ⟨line, rfl⟩
      · exact .inr (.inl rfl)

/-- On such input an editor cannot be told apart from the reference. -/
theorem lineStream_simulation :
    LineSource.Simulation fun (editor : Editor) (stream : LineStream) =>
      Tame editor.limit editor.input ∧ stream = ⟨editor.limit, editor.input.map .byte⟩ where
  reading := by
    rintro ⟨limit, input⟩ stream ⟨tame, rfl⟩
    obtain ⟨reading, rest, one, other, _⟩ := next_eq_lineStream tame
    exact (congrArg Prod.fst one).trans (congrArg Prod.fst other).symm
  rest := by
    rintro ⟨limit, input⟩ stream ⟨tame, rfl⟩
    obtain ⟨reading, rest, one, other, still, _⟩ := next_eq_lineStream tame
    have left : (LineSource.next (Editor.mk limit input)).2 = ⟨limit, rest⟩ := congrArg Prod.snd one
    rw [left]
    exact ⟨still, congrArg Prod.snd other⟩

/-- On such input an editor never fails. -/
theorem readings_of_tame {limit : Nat} {input : Bytes} (tame : Tame limit input) (count : Nat) :
    ∀ reading ∈ LineSource.readings count (Editor.mk limit input),
      (∃ line, reading = .line line) ∨ reading = .overflow ∨ reading = .finished := by
  induction count generalizing input with
  | zero =>
      intro reading none
      cases none
  | succ count ih =>
      obtain ⟨first, rest, answered, _, still, kind⟩ := next_eq_lineStream tame
      intro reading member
      rw [LineSource.readings] at member
      change reading ∈ (next _).1 :: LineSource.readings count (next _).2 at member
      rw [answered] at member
      rcases List.mem_cons.mp member with rfl | later
      · exact kind
      · exact ih still reading later

/-- A line editor and a reader with one limit give the same answers to one text, however its bytes
come to the reader, if no carriage return is part of a terminator and the text does not end inside
of a line that is too long: lines, news of lines that are too long, and the end. -/
theorem readings_eq_reader {limit : Nat} (positive : 1 ≤ limit) (text : String)
    (bare : ¬ [0x0D, newline] <:+: bytesOf text)
    (short : (unfinished (bytesOf text)).length < limit) (supply : Supply)
    (same : supply.stream = (bytesOf text).map .byte) (count : Nat) :
    LineSource.readings count (Editor.mk limit (bytesOf text)) =
        LineSource.readings count (Reader.mk limit supply) ∧
      ∀ reading ∈ LineSource.readings count (Editor.mk limit (bytesOf text)),
        (∃ line, reading = .line line) ∨ reading = .overflow ∨ reading = .finished := by
  have tame : Tame limit (bytesOf text) := ⟨⟨text, rfl⟩, bare, short⟩
  refine ⟨?_, readings_of_tame tame count⟩
  calc LineSource.readings count (Editor.mk limit (bytesOf text))
      = LineSource.readings count (LineStream.mk limit ((bytesOf text).map .byte)) :=
        lineStream_simulation.readings_eq ⟨tame, rfl⟩ count
    _ = LineSource.readings count (LineStream.mk limit supply.stream) := by rw [same]
    _ = LineSource.readings count (Reader.mk limit supply) :=
        ((Reader.readings_eq_lineStream positive supply).1 count).symm

/-- A line of one byte less than the limit, one of exactly the limit with a character of two bytes
that comes in two pieces, a blank one, a carriage return inside of a line, and a last line that no
newline ends. -/
theorem readings_eq_reader_split_character :
    let text := "abc\nabé\n\na\rb\né"
    let supply : Supply :=
      ⟨bytesOf "abc\na", [.chunk [0x62, 0xC3], .interrupted, .chunk (0xA9 :: newline :: newline ::
        bytesOf "a\rb\né")]⟩
    1 ≤ 4 ∧ ¬ [0x0D, newline] <:+: bytesOf text ∧ (unfinished (bytesOf text)).length < 4 ∧
      supply.stream = (bytesOf text).map .byte ∧
      LineSource.readings 6 (Editor.mk 4 (bytesOf text)) =
        [.line "abc", .overflow, .line "", .line "a\rb", .line "é", .finished] ∧
      LineSource.readings 6 (Editor.mk 4 (bytesOf text)) =
        LineSource.readings 6 (Reader.mk 4 supply) := by
  intro text supply
  have bytes : bytesOf text = [0x61, 0x62, 0x63, newline, 0x61, 0x62, 0xC3, 0xA9, newline, newline,
      0x61, 0x0D, 0x62, newline, 0xC3, 0xA9] := by decide
  have bare : ¬ [0x0D, newline] <:+: bytesOf text := by
    rw [bytes]
    simp [newline, List.infix_cons_iff]
  have short : (unfinished (bytesOf text)).length < 4 := by decide
  have same : supply.stream = (bytesOf text).map .byte := by decide
  refine ⟨by decide, bare, short, same, by decide, ?_⟩
  exact (readings_eq_reader (by decide) text bare short supply same 6).1

end Editor
end CommandShell
