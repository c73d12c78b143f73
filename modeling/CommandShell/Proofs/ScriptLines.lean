/-
Module: CommandShell.Proofs.ScriptLines
Purpose: Cleaning a startup script leaves the meaning of its lines alone.
Trusted boundary: none
Main exports:
  Script.isComment, Script.fields_trim, Script.isCommand_trim, Script.tokenize_commands,
  unlined, Session.sourceLines_resembles, Script.load_preserves_meaning
-/
import CommandShell.Proofs.ExitCode
import CommandShell.Proofs.StartupLines
import CommandShell.Proofs.Tokens

namespace CommandShell
namespace Script

/-- The first character that is no separator marks the line as a comment. -/
def isComment (line : List Char) : Bool :=
  line.find? (fun char => !isSeparator char) == some '#'

/-- All white space in the line is spaces and tabs. -/
def Plain (line : List Char) : Prop :=
  ∀ char ∈ line, Text.isBlank char = true → isSeparator char = true

instance (line : List Char) : Decidable (Plain line) :=
  decidable_of_iff (line.all (fun char => !Text.isBlank char || isSeparator char) = true) (by
    simp only [Plain, List.all_eq_true, Bool.or_eq_true, Bool.not_eq_true']
    constructor
    · intro all char member blank
      simpa [blank] using all char member
    · intro plain char member
      cases blank : Text.isBlank char with
      | true => exact .inr (plain char member blank)
      | false => exact .inl rfl)

/-- Separators are white space. -/
theorem isBlank_of_isSeparator {char : Char} (separates : isSeparator char = true) :
    Text.isBlank char = true := by
  simp only [isSeparator, Bool.or_eq_true, beq_iff_eq] at separates
  rcases separates with rfl | rfl <;> decide

section

variable {line : List Char}

theorem Plain.tail {char : Char} (plain : Plain (char :: line)) : Plain line :=
  fun other member => plain other (List.mem_cons_of_mem char member)

/-- Blanks at the start are not seen by the tokenizer. -/
theorem fields_dropWhile (plain : Plain line) :
    fields (line.dropWhile Text.isBlank) = fields line := by
  induction line with
  | nil => rfl
  | cons char line ih =>
      rw [List.dropWhile_cons]
      split
      case isTrue blank =>
        rw [ih plain.tail, fields_cons_separator (plain char List.mem_cons_self blank)]
      case isFalse => rfl

/-- Nor are blanks at the end. -/
theorem fields_reverse_dropWhile (plain : Plain line) :
    fields (line.dropWhile Text.isBlank).reverse = fields line.reverse := by
  induction line with
  | nil => rfl
  | cons char line ih =>
      rw [List.dropWhile_cons]
      split
      case isTrue blank =>
        rw [ih plain.tail, List.reverse_cons,
          fields_concat_separator (plain char List.mem_cons_self blank)]
      case isFalse => rfl

/-- Trimming does not change the fields of a line. -/
theorem fields_trim (plain : Plain line) : fields (Text.trim line) = fields line := by
  have inner : Plain (line.dropWhile Text.isBlank).reverse := by
    intro char member
    exact plain char ((List.dropWhile_sublist _).subset (List.mem_reverse.mp member))
  calc fields (Text.trim line)
      = fields (line.dropWhile Text.isBlank).reverse.reverse := fields_reverse_dropWhile inner
    _ = fields (line.dropWhile Text.isBlank) := by rw [List.reverse_reverse]
    _ = fields line := fields_dropWhile plain

/-- A line that starts with no blank still starts so when it is trimmed. -/
theorem trim_cons {char : Char} (kept : Text.isBlank char = false) (line : List Char) :
    ∃ rest, Text.trim (char :: line) = char :: rest := by
  simp only [Text.trim, List.dropWhile_cons, kept, Bool.false_eq_true, if_false,
    List.reverse_cons, List.dropWhile_append]
  split
  · simp
  · simp

/-- The trimmed line is a command exactly if the line has a field and is no comment. -/
theorem isCommand_trim (plain : Plain line) :
    isCommand (Text.trim line) = (!isComment line && !(fields line).isEmpty) := by
  induction line with
  | nil => simp [Text.trim, isCommand, isComment]
  | cons char line ih =>
      cases separates : isSeparator char with
      | true =>
          have blank := isBlank_of_isSeparator separates
          have shorter : Text.trim (char :: line) = Text.trim line := by simp [Text.trim, blank]
          have comment : isComment (char :: line) = isComment line := by
            simp [isComment, separates]
          rw [shorter, ih plain.tail, comment, fields_cons_separator separates]
      | false =>
          have kept : Text.isBlank char = false := by
            cases blank : Text.isBlank char with
            | true => simp [plain char List.mem_cons_self blank] at separates
            | false => rfl
          obtain ⟨rest, trimmed⟩ := trim_cons kept line
          have some := fields_cons_ne_nil separates line
          simp [trimmed, isCommand, isComment, separates, some, bne]

end

/-- What newlines separate in a text.  After a newline at its end there is one more, which is
empty. -/
def rawLines (text : String) : List String :=
  (text.toList.splitOnP (· == '\n')).map String.ofList

/-- The commands of a script are its lines that are neither comments nor blank, in their order,
token by token. -/
theorem tokenize_commands {text : String} (plain : ∀ line ∈ rawLines text, Plain line.toList) :
    (commands text.toList).map tokenize =
      (((rawLines text).filter fun line => !isComment line.toList).map tokenize).filter
        fun tokens => !tokens.isEmpty := by
  unfold commands rawLines at *
  generalize text.toList.splitOnP (· == '\n') = lines at plain ⊢
  induction lines with
  | nil => rfl
  | cons line lines ih =>
      rw [List.map_cons, List.forall_mem_cons, String.toList_ofList] at plain
      have here := isCommand_trim plain.1
      have same := fields_trim plain.1
      have later := ih plain.2
      cases comment : isComment line with
      | true => simp_all
      | false =>
          cases blank : (fields line).isEmpty with
          | true => simp_all [tokenize_ofList]
          | false => simp_all [tokenize_ofList]

end Script

/-- The events of a session other than the lines that it executes. -/
def unlined (events : List Event) : List Event :=
  events.filter fun event => event.executed?.isNone

@[simp] theorem unlined_append (one other : List Event) :
    unlined (one ++ other) = unlined one ++ unlined other :=
  List.filter_append ..

@[simp] theorem unlined_executing (line : String) (events : List Event) :
    unlined (.executing line :: events) = unlined events :=
  List.filter_cons_of_neg (by simp [Event.executed?])

/-- Two parts of sessions that differ at most in how the lines were written. -/
abbrev Step.SameButLines {α : Type} (one other : Step α) : Prop :=
  one.Resembles Eq (fun events events' => unlined events = unlined events') other

namespace Session

/-- It is for its tokens only that a line is executed. -/
theorem executeLine_of_tokenize (session : Session) {one other : String}
    (same : tokenize one = tokenize other) :
    (session.executeLine one).SameButLines (session.executeLine other) := by
  unfold executeLine
  rw [same]
  cases tokenize other with
  | nil => exact ⟨rfl, rfl, by simp⟩
  | cons name arguments =>
      dsimp only
      cases (session.perform (name :: arguments)).result with
      | ok flow => exact ⟨rfl, rfl, by simp⟩
      | error error => exact ⟨rfl, rfl, by simp⟩

/-- Lines do the same as other lines with the same tokens and blank lines in between. -/
theorem sourceLines_of_tokenize (session : Session) {one other : List String}
    (same : one.map tokenize = (other.map tokenize).filter fun tokens => !tokens.isEmpty) :
    (session.sourceLines one).SameButLines (session.sourceLines other) := by
  induction other generalizing session one with
  | nil =>
      obtain rfl : one = [] := by simpa using same
      exact ⟨rfl, rfl, rfl⟩
  | cons line other ih =>
      -- Only the other lines go past a blank line; past any other line both go together.
      cases blank : (tokenize line).isEmpty with
      | true =>
          have later := ih session (by simpa [blank] using same)
          have none : session.executeLine line = ⟨.proceed, session, [.executing line]⟩ := by
            simp [executeLine, List.isEmpty_iff.mp blank]
          rw [sourceLines.eq_2, none]
          exact ⟨later.result, later.session, by simpa using later.events⟩
      | false =>
          cases one with
          | nil => simp [blank] at same
          | cons first one =>
              simp only [List.map_cons, blank, Bool.not_false, List.filter_cons_of_pos,
                List.cons.injEq] at same
              have executed := session.executeLine_of_tokenize same.1
              have later := ih (session.executeLine line).session same.2
              rw [sourceLines, sourceLines, executed.result, executed.session]
              dsimp only
              cases (session.executeLine line).result with
              | exit => exact ⟨executed.result, executed.session, executed.events⟩
              | proceed =>
                  refine ⟨later.result, later.session, ?_⟩
                  simp [executed.events, later.events]

end Session

/-- Nothing that arrives on a stream tells how the lines were written. -/
theorem Step.SameButLines.views {α : Type} {one other : Step α} (same : one.SameButLines other)
    (stream : Stream) :
    shellWrote stream one.events = shellWrote stream other.events ∧
      programsWrote stream one.events = programsWrote stream other.events ∧
      arrived stream one.events = arrived stream other.events := by
  apply views_of_filter_eq _ same.events stream
  intro event executes stream
  cases event with
  | executing line => simp [Event.shellBytes, Event.programBytes]
  | _ => simp [Event.executed?] at executes

/-- What can be read is there. -/
theorem Machine.reaches_of_read {machine : Machine} {path : Path} {bytes : Bytes}
    (holds : machine.read path = .ok bytes) : machine.reaches path = true := by
  unfold read at holds
  unfold reaches
  split at holds
  case h_1 there => simp [there]
  case h_2 there => simp [there]
  case h_3 => cases holds
  case h_4 => cases holds

namespace Script

/-- Loading a startup script preserves its meaning.  A script whose white space is newlines, spaces
and tabs is loaded, whether it is asked for or is that of the home directory, and its commands are
those of the raw lines that are no comments, in their order and token by token.  So any session that
executes the lines as they are loaded, up to one that leaves it, comes to the same as one that
executes the raw lines. -/
theorem load_preserves_meaning (machine : Machine) (path : Path) (rc : Option Path) (text : String)
    (raw : List String) (holds : machine.read path = .ok (bytesOf text))
    (lines : rawLines text = raw ∨ rawLines text = raw ++ [""])
    (plain : ∀ line ∈ raw, Plain line.toList) :
    let kept := raw.filter fun line => !isComment line.toList
    ∃ loaded, load machine (some path) rc = .ok (some loaded) ∧
      load machine none (some path) = .ok (some loaded) ∧
      loaded.map tokenize = (kept.map tokenize).filter (fun tokens => !tokens.isEmpty) ∧
      ∀ session : Session,
        let cleaned := session.sourceLines loaded
        let whole := session.sourceLines kept
        cleaned.result = whole.result ∧ cleaned.session = whole.session ∧
          unlined cleaned.events = unlined whole.events ∧
          ∀ stream, shellWrote stream cleaned.events = shellWrote stream whole.events ∧
            programsWrote stream cleaned.events = programsWrote stream whole.events ∧
            arrived stream cleaned.events = arrived stream whole.events := by
  intro kept
  have there := Machine.reaches_of_read holds
  have tokens : (commands text.toList).map tokenize =
      (kept.map tokenize).filter fun tokens => !tokens.isEmpty := by
    rcases lines with whole | ended
    · rw [← whole] at plain
      rw [tokenize_commands plain, whole]
    · have plainly : ∀ line ∈ rawLines text, Plain line.toList := by
        rw [ended]
        intro line member
        rcases List.mem_append.mp member with member | last
        · exact plain line member
        · obtain rfl := List.mem_singleton.mp last
          simp [Plain]
      rw [tokenize_commands plainly, ended]
      simp [kept, isComment, tokenize]
  refine ⟨commands text.toList, ?_, ?_, tokens, ?_⟩
  · simp [load, there, read_of_text holds, Except.map]
  · simp [load, there, read_of_text holds, Except.map]
  · intro session
    have same := session.sourceLines_of_tokenize tokens
    exact ⟨same.result, same.session, same.events, same.views⟩

/-- A script with a comment after a blank, a blank line, a line with blanks around it, a command
that fails and one that is not executed any more. -/
theorem load_preserves_meaning_until_exit :
    let text := " \t# go\n\t pwd \n\ncd\t x\nexit\npath a\n"
    let machine : Machine :=
      { files := ⟨[([bytesOf "script"], .file 0o644 (.text (bytesOf text)))]⟩ }
    let raw := [" \t# go", "\t pwd ", "", "cd\t x", "exit", "path a"]
    machine.read (bytesOf "/script") = .ok (bytesOf text) ∧ rawLines text = raw ++ [""] ∧
      (∀ line ∈ raw, Plain line.toList) ∧
      ∃ loaded, load machine (some (bytesOf "/script")) none = .ok (some loaded) ∧
        loaded.map tokenize = [["pwd"], ["cd", "x"], ["exit"], ["path", "a"]] ∧
        (({} : Session).sourceLines loaded).session =
          (({} : Session).sourceLines ["\t pwd ", "", "cd\t x", "exit", "path a"]).session := by
  intro text machine raw
  have holds : machine.read (bytesOf "/script") = .ok (bytesOf text) := by rfl
  have lines : rawLines text = raw ++ [""] := by decide
  have plain : ∀ line ∈ raw, Plain line.toList := by decide
  obtain ⟨loaded, asked, _, tokens, same⟩ :=
    load_preserves_meaning machine (bytesOf "/script") none text raw holds (.inr lines) plain
  refine ⟨holds, lines, plain, loaded, asked, ?_, ?_⟩
  · rw [tokens]
    decide
  · exact (same {}).2.1

end Script
end CommandShell
