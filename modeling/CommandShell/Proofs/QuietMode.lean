/-
Module: CommandShell.Proofs.QuietMode
Purpose: A session in quiet mode and the same session with prompts.
Trusted boundary: none
Main exports:
  Session.withQuiet, Handled.printed, Handled.exchange, Session.RunsQuietly,
  Session.runsQuietly_run, Session.quiet_mode_omits_prompts
-/
import CommandShell.Proofs.Diagnostics
import CommandShell.Proofs.ExecutedLines
import CommandShell.Proofs.Prompts
import CommandShell.Proofs.StartupLines
import CommandShell.Source.Scripted

namespace CommandShell

/-!
Nothing looks at the mode of a session but the prompt.  So over a source both modes go through one
list of answers, and the events of either are written down from this list.
-/

/-- The same session, in quiet mode or not. -/
def Session.withQuiet (session : Session) (quiet : Bool) : Session :=
  { session with settings := { session.settings with quiet } }

/-- What the built-in command of an answer prints.  Only a line that calls one prints anything. -/
def Handled.printed (handled : Handled) : Bytes :=
  match handled.reading with
  | .line text =>
      match tokenize text with
      | [] => []
      | name :: arguments =>
          match Builtin.ofName? name with
          | none => []
          | some builtin => (builtin.perform handled.session.world arguments).printed
  | _ => []

namespace Session

variable {session : Session}

/-- A command brings to an output stream that takes everything just what it has to print. -/
theorem shellWrote_output_perform (takes : session.out = {}) (tokens : List String) :
    shellWrote .output (session.perform tokens).events =
      (session.world.perform session.settings tokens).printed := by
  have besides : shellWrote .output (session.world.perform session.settings tokens).events = [] := by
    apply List.flatMap_eq_nil_iff.mpr
    intro event member
    exact Event.shellBytes_of_ofSession (World.ofSession_perform _ _ _ event member) .output
  unfold perform
  dsimp only
  split
  case isTrue nothing => rw [besides, List.isEmpty_iff.mp nothing]
  case isFalse =>
    rw [shellWrote_append, besides, takes, shellWrote_cons, shellWrote_nil]
    exact List.append_nil _

/-- A report leaves the output stream alone. -/
theorem shellWrote_output_report (session : Session) (cause : ShellError) :
    shellWrote .output (session.report cause).events = [] := rfl

/-- What a line writes to the output stream is what its tokens print. -/
theorem shellWrote_output_executeLine (takes : session.out = {}) (line : String) :
    shellWrote .output (session.executeLine line).events =
      (session.world.perform session.settings (tokenize line)).printed := by
  have performed := shellWrote_output_perform takes (tokenize line)
  have cases := session.executeLine_cases line
  generalize session.executeLine line = done at cases
  cases cases with
  | blank blank =>
      rw [blank]
      rfl
  | succeeded => simp [Event.shellBytes, performed]
  | failed => simp [Event.shellBytes, performed, shellWrote_output_report]

end Session

/-- What an answer writes to the output stream is what the line prints that it delivers, if any. -/
theorem Handled.shellWrote_output_answer {handled : Handled} (takes : handled.session.out = {}) :
    shellWrote .output (handled.session.answer handled.reading).events = handled.printed := by
  obtain ⟨session, reading⟩ := handled
  cases reading with
  | line text =>
      dsimp only
      rw [(session.answer_line text).2, Session.shellWrote_output_executeLine takes]
      rw [printed]
      dsimp only
      cases tokenize text with
      | nil => rfl
      | cons name arguments =>
          rw [World.perform]
          dsimp only
          cases called : Builtin.ofName? name with
          | none => exact World.printed_runProgram _ _ _ _
          | some builtin => rfl
  | overflow => rfl
  | interrupted => rfl
  | finished => rfl
  | failed cause => rfl

namespace Session

variable (session : Session) (quiet : Bool)

/-- A command comes to the same in either mode. -/
theorem perform_withQuiet (tokens : List String) :
    (session.withQuiet quiet).perform tokens =
      let performed := session.perform tokens
      { performed with session := performed.session.withQuiet quiet } := by
  have same : (session.withQuiet quiet).world.perform (session.withQuiet quiet).settings tokens =
      session.world.perform session.settings tokens := rfl
  rw [perform, perform, same]
  generalize session.world.perform session.settings tokens = effect
  dsimp only
  split <;> rfl

/-- So does a line. -/
theorem executeLine_withQuiet (line : String) :
    (session.withQuiet quiet).executeLine line =
      let executed := session.executeLine line
      { executed with session := executed.session.withQuiet quiet } := by
  unfold executeLine
  cases tokenize line with
  | nil => rfl
  | cons name arguments =>
      dsimp only
      rw [perform_withQuiet]
      dsimp only
      cases (session.perform (name :: arguments)).result with
      | ok flow => rfl
      | error error => rfl

/-- So does every answer. -/
theorem answer_withQuiet (reading : Reading) :
    (session.withQuiet quiet).answer reading =
      let answered := session.answer reading
      { answered with session := answered.session.withQuiet quiet } := by
  cases reading with
  | line text =>
      unfold answer
      dsimp only
      rw [executeLine_withQuiet]
      dsimp only
      cases (session.executeLine text).result with
      | exit => rfl
      | proceed => rfl
  | overflow => rfl
  | interrupted => rfl
  | finished => rfl
  | failed cause => rfl

end Session

/-! ### From one prompt to the next -/

/-- What happens from one prompt to the next: the prompt is written, unless it is `hidden`, the
source is asked with it, and its answer is handled. -/
def Handled.exchange (prompt : String) (hidden : Bool) (handled : Handled) : List Event :=
  (if hidden then [] else Session.prompting prompt) ++
    .read prompt handled.reading :: (handled.session.answer handled.reading).events

namespace Session

variable {session : Session}

/-- A turn in quiet mode. -/
theorem turn_quiet (quiet : session.settings.quiet = true) (shownBySource : Bool)
    (reading : Reading) :
    session.turn shownBySource reading =
      let answered := session.answer reading
      { answered with events := Handled.exchange "" true ⟨session, reading⟩ } := by
  apply turn_of_quiet
  rw [Settings.shownPrompt, quiet]
  rfl

theorem isEmpty_bytesOf {text : String} (some : text ≠ "") : (bytesOf text).isEmpty = false := by
  apply Bool.eq_false_iff.mpr
  intro none
  apply some
  calc text = shown (bytesOf text) := (shown_bytesOf text).symm
    _ = "" := by rw [List.isEmpty_iff.mp none]; rfl

/-- A prompt in the other mode, where the output stream takes everything. -/
theorem showPrompt_loud (takes : session.out = {}) (prompts : session.settings.prompt ≠ "")
    (shownBySource : Bool) :
    (session.withQuiet false).showPrompt shownBySource =
      ⟨.ok (), session.withQuiet false,
        if shownBySource then [] else prompting session.settings.prompt⟩ := by
  have shown : (session.withQuiet false).settings.shownPrompt = session.settings.prompt := rfl
  have takes' : (session.withQuiet false).out = {} := takes
  rw [showPrompt_of_takes takes', shown, isEmpty_bytesOf prompts, Bool.false_or]

/-- The same turn with a prompt. -/
theorem turn_loud (takes : session.out = {}) (prompts : session.settings.prompt ≠ "")
    (shownBySource : Bool) (reading : Reading) :
    (session.withQuiet false).turn shownBySource reading =
      let answered := session.answer reading
      ⟨answered.result, answered.session.withQuiet false,
        Handled.exchange session.settings.prompt shownBySource ⟨session, reading⟩⟩ := by
  rw [turn, showPrompt_loud takes prompts]
  dsimp only
  rw [answer_withQuiet]
  rfl

/-- A run in quiet mode that handles these answers, and the same run with prompts. -/
structure RunsQuietly {σ : Type} [LineSource σ] (session : Session) (source : σ) (hidden : Bool)
    (handled : List Handled) (step : Step (Except ShellError Unit)) : Prop where
  history : ∀ {first : Session} {before : List Handled} {events : List Event},
    first.History before session events →
      first.History (before ++ handled) step.session (events ++ step.events)
  readings : handled.map Handled.reading = LineSource.readings handled.length source
  takes : ∀ one ∈ handled, one.session.out = {}
  quiet : step.events = handled.flatMap (Handled.exchange "" true)
  loud : (session.withQuiet false).run source =
    ⟨step.result, step.session.withQuiet false,
      handled.flatMap (Handled.exchange session.settings.prompt hidden)⟩

/-- A quiet session goes from one moment to the next by an exchange without a prompt. -/
theorem History.exchanged {first : Session} {before : List Handled} {events : List Event}
    (history : first.History before session events) (quiet : session.settings.quiet = true)
    (reading : Reading) :
    first.History (before ++ [⟨session, reading⟩]) (session.answer reading).session
      (events ++ Handled.exchange "" true ⟨session, reading⟩) := by
  have answered := history.answered reading
  rw [Settings.shownPrompt, quiet] at answered
  exact answered

namespace RunsQuietly

variable {σ : Type} [LineSource σ] {source : σ} {hidden : Bool}

/-- An answer may be the last. -/
theorem ends (takes : session.out = {}) (prompts : session.settings.prompt ≠ "")
    (quiet : session.settings.quiet = true) (shows : LineSource.showsPrompt source = hidden)
    {result : Except ShellError Unit}
    (ended : (session.answer (LineSource.next source).1).result = some result) :
    let handled : Handled := ⟨session, (LineSource.next source).1⟩
    session.RunsQuietly source hidden [handled]
      ⟨result, (session.answer handled.reading).session, handled.exchange "" true⟩ where
  history history := history.exchanged quiet _
  readings := rfl
  takes one member := by
    obtain rfl := List.mem_singleton.mp member
    exact takes
  quiet := (List.flatMap_singleton _ _).symm
  loud := by
    rw [run_eq_turn, turn_loud takes prompts, shows, List.flatMap_singleton]
    dsimp only
    rw [ended]

/-- Or the rest of the source is run after it. -/
theorem goesOn (takes : session.out = {}) (prompts : session.settings.prompt ≠ "")
    (quiet : session.settings.quiet = true) (shows : LineSource.showsPrompt source = hidden)
    (more : (session.answer (LineSource.next source).1).result = none)
    {handled : List Handled} {later : Step (Except ShellError Unit)}
    (rest : (session.answer (LineSource.next source).1).session.RunsQuietly
      (LineSource.next source).2 hidden handled later) :
    let first : Handled := ⟨session, (LineSource.next source).1⟩
    session.RunsQuietly source hidden (first :: handled)
      { later with events := first.exchange "" true ++ later.events } where
  history history := by
    have whole := rest.history (history.exchanged quiet (LineSource.next source).1)
    rw [List.append_assoc, List.append_assoc] at whole
    exact whole
  readings := congrArg ((LineSource.next source).1 :: ·) rest.readings
  takes one member := by
    rcases List.mem_cons.mp member with rfl | member
    · exact takes
    · exact rest.takes one member
  quiet := by rw [List.flatMap_cons, ← rest.quiet]
  loud := by
    have loud := rest.loud
    rw [settings_answer] at loud
    rw [run_eq_turn, turn_loud takes prompts, shows, List.flatMap_cons]
    dsimp only
    rw [more]
    dsimp only
    rw [loud]

end RunsQuietly

/-- Over a source that always draws the prompt itself or never does, a session in quiet mode and
the same session with prompts handle the same answers. -/
theorem runsQuietly_run {σ : Type} [LineSource σ] {hidden : Bool} (session : Session) (source : σ)
    (takes : session.out = {}) (prompts : session.settings.prompt ≠ "")
    (quiet : session.settings.quiet = true)
    (shows : ∀ count, LineSource.showsPrompt (LineSource.after count source) = hidden) :
    ∃ handled, session.RunsQuietly source hidden handled (session.run source) := by
  revert takes prompts quiet shows
  apply run_induction (motive := fun session source step =>
    session.out = {} → session.settings.prompt ≠ "" → session.settings.quiet = true →
      (∀ count, LineSource.showsPrompt (LineSource.after count source) = hidden) →
        ∃ handled, session.RunsQuietly source hidden handled step)
  · intro session source result turned ended takes prompts quiet shows
    have quietly : turned = _ := turn_quiet quiet _ _
    rw [quietly] at ended ⊢
    exact ⟨_, .ends takes prompts quiet (shows 0) ended⟩
  · intro session source later turned more ih takes prompts quiet shows
    have quietly : turned = _ := turn_quiet quiet _ _
    rw [quietly] at more ih ⊢
    have takes' := (arrives_answer takes (LineSource.next source).1).out
    have settings := session.settings_answer (LineSource.next source).1
    obtain ⟨handled, rest⟩ := ih takes' (by rw [settings]; exact prompts)
      (by rw [settings]; exact quiet) (fun count => shows (count + 1))
    exact ⟨_, .goesOn takes prompts quiet (shows 0) more rest⟩

end Session

namespace Handled

variable (prompt : String) (hidden : Bool) (handled : Handled)

/-- A view to which prompts and reads bring nothing sees of exchanges how the answers are handled. -/
theorem flatMap_exchanges {α : Type} {view : Event → List α}
    (prompted : ∀ write, view (.prompted write) = [])
    (flushed : ∀ stream succeeded, view (.flushed stream succeeded) = [])
    (read : ∀ prompt reading, view (.read prompt reading) = []) (handled : List Handled) :
    (handled.flatMap (exchange prompt hidden)).flatMap view =
      handled.flatMap fun one => (one.session.answer one.reading).events.flatMap view := by
  have unprompted : (if hidden then [] else Session.prompting prompt).flatMap view = [] := by
    cases hidden with
    | true => rfl
    | false => simp [Session.prompting, prompted, flushed]
  rw [List.flatMap_assoc]
  apply congrArg (fun part => handled.flatMap part)
  funext one
  rw [exchange, List.flatMap_append, unprompted, List.flatMap_cons, read, List.nil_append,
    List.nil_append]

/-- The answers of exchanges are what was read in them. -/
theorem reads_exchanges (handled : List Handled) :
    reads (handled.flatMap (exchange prompt hidden)) = handled.map reading := by
  induction handled with
  | nil => rfl
  | cons one rest ih =>
      rw [List.flatMap_cons, reads_append, ih, exchange, reads_append, reads_read,
        Session.reads_answer]
      cases hidden with
      | true => rfl
      | false => rfl

/-- The lines among them are what was executed. -/
theorem executed_exchanges (handled : List Handled) :
    executed (handled.flatMap (exchange prompt hidden)) = handled.filterMap line? := by
  induction handled with
  | nil => rfl
  | cons one rest ih =>
      have unprompted : executed (if hidden then [] else Session.prompting prompt) = [] := by
        cases hidden with
        | true => rfl
        | false => rfl
      rw [List.flatMap_cons, executed_append, ih, exchange, executed_append, executed_read,
        Session.executed_answer, unprompted, List.filterMap_cons, line?]
      cases one.reading.line? with
      | none => rfl
      | some line => rfl

/-- An exchange writes the prompt, unless it is hidden, and then what is printed. -/
theorem shellWrote_output_exchange (takes : handled.session.out = {}) :
    shellWrote .output (handled.exchange prompt hidden) =
      (if hidden then [] else bytesOf prompt) ++ handled.printed := by
  rw [exchange, shellWrote_append, shellWrote_cons, shellWrote_output_answer takes]
  cases hidden with
  | true => rfl
  | false => simp [Session.prompting, Event.shellBytes]

/-- What they bring to an output stream that takes everything: for each the prompt and what is
printed after it. -/
theorem shellWrote_output_exchanges {handled : List Handled}
    (takes : ∀ one ∈ handled, one.session.out = {}) :
    shellWrote .output (handled.flatMap (exchange prompt hidden)) =
      handled.flatMap fun one => (if hidden then [] else bytesOf prompt) ++ one.printed := by
  rw [shellWrote, List.flatMap_assoc, List.flatMap_def, List.flatMap_def]
  apply congrArg List.flatten
  apply List.map_congr_left
  intro one member
  exact one.shellWrote_output_exchange prompt hidden (takes one member)

end Handled

namespace Session

/-- Quiet mode leaves out the prompts and nothing else.  A session whose output stream takes
everything reads and executes the same in quiet mode as with prompts, and comes to the same: to the
same result, in the same world, with the same diagnostics and the same output of its programs.  In
quiet mode its output is what the built-in commands of its answers print, one after the other; with
prompts each of these pieces has the prompt before it, as long as the source does not draw the
prompt itself.  So one prompt precedes each read, and the last read as well. -/
theorem quiet_mode_omits_prompts {σ : Type} [LineSource σ] (session : Session) (source : σ)
    (hidden : Bool) (takes : session.out = {}) (prompts : session.settings.prompt ≠ "")
    (shows : ∀ count, LineSource.showsPrompt (LineSource.after count source) = hidden) :
    let quiet := (session.withQuiet true).run source
    let loud := (session.withQuiet false).run source
    loud.result = quiet.result ∧
      loud.session = quiet.session.withQuiet false ∧
      reads loud.events = reads quiet.events ∧
      executed loud.events = executed quiet.events ∧
      shellWrote .error loud.events = shellWrote .error quiet.events ∧
      (∀ stream, programsWrote stream loud.events = programsWrote stream quiet.events) ∧
      (hidden = true → shellWrote .output loud.events = shellWrote .output quiet.events) ∧
      ∃ handled, (session.withQuiet true).History handled quiet.session quiet.events ∧
        reads quiet.events = handled.map Handled.reading ∧
        handled.map Handled.reading = LineSource.readings handled.length source ∧
        quiet.events = handled.flatMap (Handled.exchange "" true) ∧
        loud.events = handled.flatMap (Handled.exchange session.settings.prompt hidden) ∧
        shellWrote .output quiet.events = handled.flatMap Handled.printed ∧
        shellWrote .output loud.events =
          handled.flatMap fun one =>
            (if hidden then [] else bytesOf session.settings.prompt) ++ one.printed := by
  intro quiet loud
  obtain ⟨handled, runs⟩ := runsQuietly_run (session.withQuiet true) source takes prompts rfl shows
  have louder : loud = ⟨quiet.result, quiet.session.withQuiet false,
      handled.flatMap (Handled.exchange session.settings.prompt hidden)⟩ := runs.loud
  have quieter : quiet.events = handled.flatMap (Handled.exchange "" true) := runs.quiet
  have history := runs.history .start
  rw [List.nil_append, List.nil_append] at history
  have quietly : shellWrote .output quiet.events = handled.flatMap Handled.printed := by
    rw [quieter]
    exact Handled.shellWrote_output_exchanges "" true runs.takes
  have loudly := Handled.shellWrote_output_exchanges session.settings.prompt hidden runs.takes
  have besides : ∀ {α : Type} {view : Event → List α} (prompt : String) (hidden : Bool),
      (∀ write, view (.prompted write) = []) →
      (∀ stream succeeded, view (.flushed stream succeeded) = []) →
      (∀ prompt reading, view (.read prompt reading) = []) →
        (handled.flatMap (Handled.exchange prompt hidden)).flatMap view =
          quiet.events.flatMap view := by
    intro α view prompt hidden prompted flushed read
    rw [quieter, Handled.flatMap_exchanges _ _ prompted flushed read,
      Handled.flatMap_exchanges _ _ prompted flushed read]
  rw [louder]
  refine ⟨rfl, rfl, ?_, ?_, ?_, ?_, ?_, handled, history, ?_, runs.readings, quieter, rfl,
    quietly, loudly⟩
  · rw [quieter, Handled.reads_exchanges, Handled.reads_exchanges]
  · rw [quieter, Handled.executed_exchanges, Handled.executed_exchanges]
  · exact besides _ _ (fun _ => rfl) (fun _ _ => rfl) (fun _ _ => rfl)
  · intro stream
    exact besides _ _ (fun _ => rfl) (fun _ _ => rfl) (fun _ _ => rfl)
  · rintro rfl
    rw [quietly]
    exact loudly
  · rw [quieter, Handled.reads_exchanges]

/-- A command that prints, a line that is too long, one that is given up, a blank line, a command
that fails with a word on both streams, and the end: each after a prompt. -/
theorem quiet_mode_omits_prompts_mixed :
    let session : Session := {}
    let source : ScriptedSource :=
      { answers := [.line "pwd", .overflow, .interrupted, .line "", .line "cd nowhere"] }
    let quiet := (session.withQuiet true).run source
    let loud := (session.withQuiet false).run source
    session.out = {} ∧ session.settings.prompt ≠ "" ∧
      (∀ count, LineSource.showsPrompt (LineSource.after count source) = false) ∧
      shellWrote .output quiet.events = bytesOf "/\nError: nowhere\n" ∧
      shellWrote .output loud.events =
        bytesOf "whoosh> /\nwhoosh> whoosh> whoosh> whoosh> Error: nowhere\nwhoosh> " ∧
      loud.result = quiet.result := by
  intro session source quiet loud
  refine ⟨rfl, by decide, source.showsPrompt_after, ?_, ?_, ?_⟩
  · decide +kernel
  · decide +kernel
  · exact (quiet_mode_omits_prompts session source false rfl (by decide) source.showsPrompt_after).1

end Session
end CommandShell
