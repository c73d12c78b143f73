/-
Module: CommandShell.Proofs.LoadedLines
Purpose: The lines that are loaded from a script, and loading them again once they are written.
Trusted boundary: none
Main exports:
  Text.Bare, Text.Trims, Text.trims_trim, Text.Trims.trim_eq, Script.Idle, Script.Selects, Script.selects_iff,
  Script.fileLines, Script.selects_fileLines, Script.Clean, Script.clean_of_mem_commands,
  Script.written, Script.commands_written, Script.load_normal_form
-/
import CommandShell.Proofs.ScriptLines

namespace CommandShell

/-!
`Text.trim` works on the two ends of a text one after the other.  What it comes to is told here
without it: blanks, then a text that blanks do not border, then blanks.  There is only one way to
cut a text like this.
-/

namespace Text

/-- No blank is at either end of the text. -/
structure Bare (text : List Char) : Prop where
  first : ∀ char, text.head? = some char → isBlank char = false
  last : ∀ char, text.getLast? = some char → isBlank char = false

/-- The text is the other one with blanks around it, and has no more of them. -/
structure Trims (text core : List Char) : Prop where
  bare : Bare core
  around : ∃ before after, text = before ++ (core ++ after) ∧
    (∀ char ∈ before, isBlank char = true) ∧ ∀ char ∈ after, isBlank char = true

theorem dropWhile_of_head? {text : List Char}
    (kept : ∀ char, text.head? = some char → isBlank char = false) :
    text.dropWhile isBlank = text := by
  cases text with
  | nil => rfl
  | cons char text => exact List.dropWhile_cons_of_neg (by simp [kept char rfl])

/-- What is left when blanks are dropped does not start with one. -/
theorem head?_dropWhile {text : List Char} {char : Char}
    (first : (text.dropWhile isBlank).head? = some char) : isBlank char = false := by
  have stopped := List.head?_dropWhile_not isBlank text
  rw [first] at stopped
  simpa using stopped

/-- What is dropped from the front is blanks. -/
theorem eq_append_dropWhile (text : List Char) :
    ∃ before, text = before ++ text.dropWhile isBlank ∧ ∀ char ∈ before, isBlank char = true :=
  ⟨text.takeWhile isBlank, List.takeWhile_append_dropWhile.symm,
    List.all_eq_true.mp List.all_takeWhile⟩

/-- Trimming takes the blanks off both ends. -/
theorem trims_trim (text : List Char) : Trims text (trim text) := by
  obtain ⟨before, front, blankBefore⟩ := eq_append_dropWhile text
  obtain ⟨after, back, blankAfter⟩ := eq_append_dropWhile (text.dropWhile isBlank).reverse
  have rest : text.dropWhile isBlank = trim text ++ after.reverse := by
    rw [← List.reverse_reverse (text.dropWhile isBlank), back, List.reverse_append]
    simp [trim]
  constructor
  case bare =>
    constructor
    case first =>
      intro char first
      refine @head?_dropWhile text char ?_
      rw [rest, List.head?_append, first, Option.some_or]
    case last =>
      intro char last
      rw [trim, List.getLast?_reverse] at last
      exact head?_dropWhile last
  case around =>
    refine ⟨before, after.reverse, ?_, blankBefore, by simpa using blankAfter⟩
    rw [← rest]
    exact front

/-- There is no other way to take them off. -/
theorem Trims.trim_eq {text core : List Char} (trims : Trims text core) : trim text = core := by
  obtain ⟨bare, before, after, rfl, blankBefore, blankAfter⟩ := trims
  rw [trim, List.dropWhile_append_of_pos blankBefore]
  -- With nothing between them, the blanks after are already gone when the start has been dropped.
  cases core with
  | nil =>
      have nothing : after.dropWhile isBlank = [] := by
        rw [← List.append_nil after, List.dropWhile_append_of_pos blankAfter, List.dropWhile_nil]
      simp [nothing]
  | cons char core =>
      have front : (char :: core ++ after).dropWhile isBlank = char :: core ++ after :=
        dropWhile_of_head? (by simpa using bare.first)
      have back : (char :: core).reverse.dropWhile isBlank = (char :: core).reverse :=
        dropWhile_of_head? (by simpa only [List.head?_reverse] using bare.last)
      have blankAfter : ∀ char ∈ after.reverse, isBlank char = true := by simpa using blankAfter
      rw [front, List.reverse_append, List.dropWhile_append_of_pos blankAfter, back,
        List.reverse_reverse]

/-- A blank more at the end is one more to take off. -/
theorem Trims.concat {text core : List Char} (trims : Trims text core) {char : Char}
    (blank : isBlank char = true) : Trims (text ++ [char]) core := by
  obtain ⟨bare, before, after, rfl, blankBefore, blankAfter⟩ := trims
  refine ⟨bare, before, after ++ [char], by simp, blankBefore, ?_⟩
  intro other member
  rcases List.mem_append.mp member with earlier | here
  · exact blankAfter other earlier
  · obtain rfl := List.mem_singleton.mp here
    exact blank

theorem Bare.trims {text : List Char} (bare : Bare text) : Trims text text :=
  ⟨bare, [], [], by simp, by simp, by simp⟩

/-- Trimming takes off one more blank at the end as well. -/
theorem trim_concat (text : List Char) {char : Char} (blank : isBlank char = true) :
    trim (text ++ [char]) = trim text :=
  ((trims_trim text).concat blank).trim_eq

end Text

namespace Script

/-! ### The lines that are kept -/

/-- There is nothing to execute in the line: it is empty or a comment. -/
def Idle (line : List Char) : Prop :=
  line = [] ∨ line.head? = some '#'

/-- Lines, and what is kept of them: each one that there is something to execute in, without the
blanks around it, in their order. -/
inductive Selects : List String → List String → Prop
  | done : Selects [] []
  | dropped {line : String} {core : List Char} {lines loaded : List String}
      (trims : Text.Trims line.toList core) (idle : Idle core) (later : Selects lines loaded) :
      Selects (line :: lines) loaded
  | kept {line : String} {core : List Char} {lines loaded : List String}
      (trims : Text.Trims line.toList core) (busy : ¬ Idle core) (later : Selects lines loaded) :
      Selects (line :: lines) (String.ofList core :: loaded)

/-- A line that is no command has nothing to execute in it. -/
theorem isCommand_eq_false_iff {line : List Char} : isCommand line = false ↔ Idle line := by
  cases line with
  | nil => simp [isCommand, Idle]
  | cons char line => simp [isCommand, Idle]

theorem isCommand_iff {line : List Char} : isCommand line = true ↔ ¬ Idle line := by
  rw [← isCommand_eq_false_iff, Bool.not_eq_false]

/-- The commands among lines that are given one by one. -/
def commandsOf (lines : List (List Char)) : List String :=
  ((lines.map Text.trim).filter isCommand).map String.ofList

theorem commands_eq (content : List Char) :
    commands content = commandsOf (content.splitOnP (· == '\n')) := rfl

theorem commandsOf_append (one other : List (List Char)) :
    commandsOf (one ++ other) = commandsOf one ++ commandsOf other := by
  simp [commandsOf]

theorem commandsOf_cons (line : List Char) (lines : List (List Char)) :
    commandsOf (line :: lines) = commandsOf [line] ++ commandsOf lines := by
  rw [← List.singleton_append, commandsOf_append]

theorem commandsOf_idle {line core : List Char} (trims : Text.Trims line core) (idle : Idle core) :
    commandsOf [line] = [] := by
  simp [commandsOf, trims.trim_eq, isCommand_eq_false_iff.mpr idle]

theorem commandsOf_busy {line core : List Char} (trims : Text.Trims line core)
    (busy : ¬ Idle core) : commandsOf [line] = [String.ofList core] := by
  simp [commandsOf, trims.trim_eq, isCommand_iff.mpr busy]

/-- Of lines there is just one selection, and it is what cleaning them comes to. -/
theorem selects_iff {lines loaded : List String} :
    Selects lines loaded ↔ loaded = commandsOf (lines.map String.toList) := by
  constructor
  · intro selects
    induction selects with
    | done => rfl
    | dropped trims idle later ih =>
        rw [List.map_cons, commandsOf_cons, commandsOf_idle trims idle, List.nil_append, ih]
    | kept trims busy later ih =>
        rw [List.map_cons, commandsOf_cons, commandsOf_busy trims busy, List.singleton_append, ih]
  · rintro rfl
    induction lines with
    | nil => exact .done
    | cons line lines ih =>
        have trims := Text.trims_trim line.toList
        rw [List.map_cons, commandsOf_cons]
        by_cases idle : Idle (Text.trim line.toList)
        · rw [commandsOf_idle trims idle]
          exact .dropped trims idle ih
        · rw [commandsOf_busy trims idle]
          exact .kept trims idle ih

/-- What a script is loaded as is what is kept of the lines that newlines separate. -/
theorem selects_rawLines_iff {text : String} {loaded : List String} :
    Selects (rawLines text) loaded ↔ loaded = commands text.toList := by
  rw [selects_iff, commands_eq, rawLines, List.map_map]
  simp [Function.comp_def]

/-!
Between two newlines a file has a line, and so it has after the last one unless nothing is there.  A
carriage return right before a newline belongs to the line end.  These are not the lines that
newlines separate, but they only differ in blanks.
-/

/-- The lines of a text that comes after a part of a line. -/
def linesFrom (current : List Char) : List Char → List (List Char)
  | [] => if current.isEmpty then [] else [current]
  | '\n' :: rest => current :: linesFrom [] rest
  | '\r' :: '\n' :: rest => current :: linesFrom [] rest
  | char :: rest => linesFrom (current ++ [char]) rest

/-- The lines of a file that holds the text. -/
def fileLines (text : String) : List String :=
  (linesFrom [] text.toList).map String.ofList

/-- No command goes across a newline. -/
theorem commands_append_newline (one other : List Char) :
    commands (one ++ '\n' :: other) = commands one ++ commands other := by
  rw [commands_eq, List.splitOnP_append_cons one other (by simp), commandsOf_append]
  rfl

theorem commands_of_not_mem {line : List Char} (whole : '\n' ∉ line) :
    commands line = commandsOf [line] := by
  rw [commands_eq, List.splitOnP_eq_singleton]
  intro char member
  simp only [beq_eq_false_iff_ne]
  rintro rfl
  exact whole member

/-- A blank at the end of a line makes no difference to what is kept of it. -/
theorem commandsOf_concat (line : List Char) {char : Char} (blank : Text.isBlank char = true) :
    commandsOf [line ++ [char]] = commandsOf [line] := by
  simp [commandsOf, Text.trim_concat line blank]

/-- The commands of a line and of what comes after it, however the line ends. -/
theorem commands_line {line : List Char} (whole : '\n' ∉ line) (rest : List Char) :
    commands (line ++ '\n' :: rest) = commandsOf [line] ++ commands rest ∧
      commands (line ++ '\r' :: '\n' :: rest) = commandsOf [line] ++ commands rest := by
  constructor
  · rw [commands_append_newline, commands_of_not_mem whole]
  · -- The carriage return is a blank at the end of its line.
    have returned : '\n' ∉ line ++ ['\r'] := by simpa using whole
    have apart : line ++ '\r' :: '\n' :: rest = (line ++ ['\r']) ++ '\n' :: rest := by simp
    rw [apart, commands_append_newline, commands_of_not_mem returned,
      commandsOf_concat line (by decide)]

/-- Going through a text line by line finds its commands, those of the current line with them. -/
theorem commandsOf_linesFrom {current : List Char} (whole : '\n' ∉ current) (text : List Char) :
    commandsOf (linesFrom current text) = commands (current ++ text) := by
  fun_induction linesFrom current text with
  | case1 current empty =>
      obtain rfl := List.isEmpty_iff.mp empty
      rfl
  | case2 current filled => rw [List.append_nil, commands_of_not_mem whole]
  | case3 current rest ih =>
      rw [commandsOf_cons, ih List.not_mem_nil, (commands_line whole rest).1, List.nil_append]
  | case4 current rest ih =>
      rw [commandsOf_cons, ih List.not_mem_nil, (commands_line whole rest).2, List.nil_append]
  | case5 current char rest newline _ ih =>
      rw [ih, List.append_assoc, List.singleton_append]
      rw [List.mem_append, List.mem_singleton, not_or]
      exact ⟨whole, fun same => newline same.symm⟩

/-- The commands of a script are those of its lines, whether a file ends its lines with newlines or
newlines lie between them. -/
theorem selects_fileLines (text : String) : Selects (fileLines text) (commands text.toList) := by
  rw [selects_iff, fileLines, List.map_map]
  have same := commandsOf_linesFrom List.not_mem_nil text.toList
  simpa [Function.comp_def] using same.symm

/-- A line as it is loaded. -/
structure Clean (line : String) : Prop where
  filled : line ≠ ""
  whole : '\n' ∉ line.toList
  bare : Text.Bare line.toList
  uncommented : line.toList.head? ≠ some '#'

theorem Clean.busy {line : String} (clean : Clean line) : ¬ Idle line.toList := by
  rintro (empty | comment)
  · exact clean.filled (String.toList_inj.mp empty)
  · exact clean.uncommented comment

/-- Every line that is loaded is clean. -/
theorem clean_of_mem_commands {content : List Char} {line : String}
    (among : line ∈ commands content) : Clean line := by
  simp only [commands, List.mem_map, List.mem_filter] at among
  obtain ⟨_, ⟨⟨raw, between, rfl⟩, command⟩, rfl⟩ := among
  have busy := isCommand_iff.mp command
  obtain ⟨bare, before, after, cut, -, -⟩ := Text.trims_trim raw
  constructor
  case filled =>
    intro empty
    exact busy (.inl (String.ofList_eq_empty_iff.mp empty))
  case whole =>
    rw [String.toList_ofList]
    intro member
    have among : '\n' ∈ raw := by
      rw [cut]
      simp [member]
    simpa using separates_eq_false_of_mem_splitOnP between _ among
  case bare =>
    rw [String.toList_ofList]
    exact bare
  case uncommented =>
    rw [String.toList_ofList]
    exact fun comment => busy (.inr comment)

/-- What ends a line. -/
inductive LineEnd where
  | newline
  | returned

/-- A carriage return may come before the newline. -/
def LineEnd.text : LineEnd → String
  | .newline => "\n"
  | .returned => "\r\n"

/-- A file of lines, each with its own end. -/
def written : List (String × LineEnd) → String
  | [] => ""
  | (line, ending) :: rest => line ++ ending.text ++ written rest

/-- The commands of a file of clean lines are these lines. -/
theorem commands_written {ended : List (String × LineEnd)}
    (clean : ∀ line ∈ ended.map Prod.fst, Clean line) :
    commands (written ended).toList = ended.map Prod.fst := by
  induction ended with
  | nil => rfl
  | cons first rest ih =>
      obtain ⟨line, ending⟩ := first
      rw [List.map_cons, List.forall_mem_cons] at clean
      have here : commandsOf [line.toList] = [line] := by
        rw [commandsOf_busy clean.1.bare.trims clean.1.busy, String.ofList_toList]
      obtain ⟨plain, returned⟩ := commands_line clean.1.whole (written rest).toList
      rw [here, ih clean.2] at plain returned
      cases ending with
      | newline => simpa [written, LineEnd.text] using plain
      | returned => simpa [written, LineEnd.text] using returned

/-- A text is loaded the same whether it is asked for or found at home. -/
theorem load_of_text {machine : Machine} {path : Path} {text : String} (rc : Option Path)
    (holds : machine.read path = .ok (bytesOf text)) :
    load machine (some path) rc = .ok (some (commands text.toList)) ∧
      load machine none (some path) = .ok (some (commands text.toList)) := by
  have there := Machine.reaches_of_read holds
  constructor
  · simp [load, there, read_of_text holds, Except.map]
  · simp [load, there, read_of_text holds, Except.map]

/-- Loading a script brings it into normal form.  The lines that are loaded of a file of text are
those of the file without the blanks around them, in their order and however often they are there,
save those that are then empty or comments.  So each is clean, and if they are written to a file,
each with either end, then they are loaded from it again as they are. -/
theorem load_normal_form (machine : Machine) (path : Path) (rc : Option Path) (text : String)
    (holds : machine.read path = .ok (bytesOf text)) :
    ∃ loaded, load machine (some path) rc = .ok (some loaded) ∧
      load machine none (some path) = .ok (some loaded) ∧
      (∀ listed, Selects (rawLines text) listed ↔ listed = loaded) ∧
      (∀ listed, Selects (fileLines text) listed ↔ listed = loaded) ∧
      (∀ line ∈ loaded, Clean line) ∧
      ∀ (other : Machine) (place : Path) (ended : List (String × LineEnd)),
        ended.map Prod.fst = loaded → other.read place = .ok (bytesOf (written ended)) →
        load other (some place) rc = .ok (some loaded) ∧
          load other none (some place) = .ok (some loaded) := by
  have clean : ∀ line ∈ commands text.toList, Clean line :=
    fun _ among => clean_of_mem_commands among
  obtain ⟨asked, found⟩ := load_of_text rc holds
  refine ⟨commands text.toList, asked, found, ?raw, ?filed, clean, ?again⟩
  case raw => exact fun _ => selects_rawLines_iff
  case filed =>
    intro listed
    rw [selects_iff, ← selects_iff.mp (selects_fileLines text)]
  case again =>
    intro other place ended lines again
    have same : commands (written ended).toList = commands text.toList := by
      rw [commands_written (by rwa [lines]), lines]
    rw [← same]
    exact load_of_text rc again

/-- A script with an ideographic space before a comment, a line between a no-break space and a
carriage return, blank lines, one command twice and no newline at its end. -/
theorem load_normal_form_mixed_ends :
    let text :=
      "\u3000# go\r\n\u00A0pwd\r\n\r\n cd \u2003x\ncd \u2003x\t\n#pwd\n\u0085\r\r\nexit \r"
    let ended : List (String × LineEnd) :=
      [("pwd", .returned), ("cd \u2003x", .newline), ("cd \u2003x", .returned), ("exit", .newline)]
    let holding (content : Bytes) : Machine :=
      { files := ⟨[([bytesOf "script"], .file 0o644 (.text content))]⟩ }
    let place := bytesOf "/script"
    (holding (bytesOf text)).read place = .ok (bytesOf text) ∧
      (holding (bytesOf (written ended))).read place = .ok (bytesOf (written ended)) ∧
      ∃ loaded, loaded = ended.map Prod.fst ∧
        load (holding (bytesOf text)) (some place) none = .ok (some loaded) ∧
        load (holding (bytesOf (written ended))) (some place) none = .ok (some loaded) := by
  intro text ended holding place
  have holds : (holding (bytesOf text)).read place = .ok (bytesOf text) := by rfl
  have again : (holding (bytesOf (written ended))).read place = .ok (bytesOf (written ended)) := by
    rfl
  obtain ⟨loaded, asked, _, raw, _, _, reload⟩ :=
    load_normal_form (holding (bytesOf text)) place none text holds
  have lines : ended.map Prod.fst = loaded :=
    (raw _).mp (selects_rawLines_iff.mpr (by decide))
  exact ⟨holds, again, loaded, lines.symm, asked, (reload _ place ended lines again).1⟩

end Script
end CommandShell
