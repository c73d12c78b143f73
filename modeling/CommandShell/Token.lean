/-
Module: CommandShell.Token
Purpose: Splitting a command line into its tokens.
Trusted boundary: none
Main exports:
  isSeparator, tokenize, tokenize_ne_empty
-/
namespace CommandShell

/-!
A token is a longest run of characters other than space and tab.  There is no quoting and no
escape: every other character, a line break or a no-break space included, is part of a token.
-/

/-- Tokens end at spaces and tabs, and at nothing else. -/
def isSeparator (char : Char) : Bool :=
  char == ' ' || char == '\t'

/-- The fields between separators, without the empty ones that neighbouring separators leave. -/
def fields (chars : List Char) : List (List Char) :=
  (chars.splitOnP isSeparator).filter fun field => !field.isEmpty

/-- The tokens of a line.  A blank line has none. -/
def tokenize (line : String) : List String :=
  (fields line.toList).map String.ofList

/-- No token is empty. -/
theorem tokenize_ne_empty {line token : String} (among : token ∈ tokenize line) : token ≠ "" := by
  simp only [tokenize, fields, List.mem_map, List.mem_filter] at among
  obtain ⟨field, ⟨_, nonempty⟩, rfl⟩ := among
  intro empty
  have none : field = [] := by simpa using congrArg String.toList empty
  simp [none] at nonempty

end CommandShell
