/-
Module: CommandShell.Proofs.ExecutedLines
Purpose: The lines that a session has executed and the answers it has read, told from its events.
Trusted boundary: none
Main exports:
  executed, reads, Reading.line?, Session.executed_executeLine, Session.reads_executeLine,
  Session.executed_answer, Session.reads_answer, Session.History.executed_eq
-/
import CommandShell.Proofs.CommandCases
import CommandShell.Proofs.History

namespace CommandShell

/-- The line that is executed in an event. -/
def Event.executed? : Event → Option String
  | .executing line => some line
  | _ => none

/-- The answer of the source that an event is. -/
def Event.reading? : Event → Option Reading
  | .read _ reading => some reading
  | _ => none

/-- The lines that were executed, in order. -/
def executed (events : List Event) : List String :=
  events.filterMap Event.executed?

/-- The answers that were read, in order. -/
def reads (events : List Event) : List Reading :=
  events.filterMap Event.reading?

/-- The line that an answer delivers. -/
def Reading.line? : Reading → Option String
  | .line text => some text
  | _ => none

/-- The lines executed in two parts are those of the first and then those of the second. -/
@[simp] theorem executed_append (one other : List Event) :
    executed (one ++ other) = executed one ++ executed other :=
  List.filterMap_append ..

@[simp] theorem reads_append (one other : List Event) :
    reads (one ++ other) = reads one ++ reads other :=
  List.filterMap_append ..

@[simp] theorem executed_executing (line : String) (events : List Event) :
    executed (.executing line :: events) = line :: executed events :=
  List.filterMap_cons_some rfl

@[simp] theorem executed_read (prompt : String) (reading : Reading) (events : List Event) :
    executed (.read prompt reading :: events) = executed events :=
  List.filterMap_cons_none rfl

@[simp] theorem reads_executing (line : String) (events : List Event) :
    reads (.executing line :: events) = reads events :=
  List.filterMap_cons_none rfl

@[simp] theorem reads_read (prompt : String) (reading : Reading) (events : List Event) :
    reads (.read prompt reading :: events) = reading :: reads events :=
  List.filterMap_cons_some rfl

/-- The events that say what a session was given to do: its reads and the lines it executes. -/
def Event.ofInput : Event → Bool
  | .read .. => true
  | .executing _ => true
  | _ => false

section

variable {events : List Event}

/-- Where nothing is given from outside, no line is executed. -/
theorem executed_eq_nil (besides : ∀ event ∈ events, event.ofInput = false) :
    executed events = [] := by
  apply List.filterMap_eq_nil_iff.mpr
  intro event member
  cases event with
  | executing => cases besides _ member
  | _ => rfl

/-- Where nothing is given from outside, nothing is read. -/
theorem reads_eq_nil (besides : ∀ event ∈ events, event.ofInput = false) : reads events = [] := by
  apply List.filterMap_eq_nil_iff.mpr
  intro event member
  cases event with
  | read => cases besides _ member
  | _ => rfl

end

namespace Session

/-- A command gives itself nothing to do. -/
theorem ofInput_perform (session : Session) (tokens : List String) :
    ∀ event ∈ (session.perform tokens).events, event.ofInput = false := by
  intro event member
  rcases session.ofSession_perform tokens event member with other | ⟨write, rfl⟩
  · cases event with
    | read => cases other
    | executing => cases other
    | _ => rfl
  · rfl

/-- A prompt neither reads nor executes. -/
theorem ofInput_showPrompt (session : Session) (shownBySource : Bool) :
    ∀ event ∈ (session.showPrompt shownBySource).events, event.ofInput = false := by
  intro event member
  rcases of_mem_showPrompt member with ⟨write, rfl⟩ | ⟨succeeded, rfl⟩
  · rfl
  · rfl

/-- A report neither reads nor executes. -/
theorem ofInput_report (session : Session) (cause : ShellError) :
    ∀ event ∈ (session.report cause).events, event.ofInput = false := by
  intro event member
  rcases List.mem_cons.mp member with rfl | member
  · rfl
  · obtain rfl := List.mem_singleton.mp member
    rfl

/-- The execution of a line starts with the line, and nothing that follows is given from outside. -/
theorem events_executeLine (session : Session) (line : String) :
    ∃ besides, (session.executeLine line).events = .executing line :: besides ∧
      ∀ event ∈ besides, event.ofInput = false := by
  have flushed : ∀ event ∈ (session.perform (tokenize line)).events ++
      [.flushed .output session.out.flushes], event.ofInput = false := by
    intro event member
    rcases List.mem_append.mp member with member | last
    · exact session.ofInput_perform _ event member
    · obtain rfl := List.mem_singleton.mp last
      rfl
  have cases := session.executeLine_cases line
  generalize session.executeLine line = done at cases
  cases cases with
  | blank =>
      refine ⟨[], rfl, ?_⟩
      intro event member
      cases member
  | succeeded => exact ⟨_, rfl, flushed⟩
  | failed =>
      refine ⟨_, rfl, ?_⟩
      intro event member
      rcases List.mem_append.mp member with member | reported
      · exact flushed event member
      · exact ofInput_report _ _ event reported

/-- The one line executed while a line is executed is that line. -/
@[simp] theorem executed_executeLine (session : Session) (line : String) :
    executed (session.executeLine line).events = [line] := by
  obtain ⟨besides, events, quiet⟩ := session.events_executeLine line
  rw [events, executed_executing, executed_eq_nil quiet]

/-- Executing a line reads nothing, whatever programs it starts. -/
@[simp] theorem reads_executeLine (session : Session) (line : String) :
    reads (session.executeLine line).events = [] := by
  obtain ⟨besides, events, quiet⟩ := session.events_executeLine line
  rw [events, reads_executing, reads_eq_nil quiet]

@[simp] theorem executed_showPrompt (session : Session) (shownBySource : Bool) :
    executed (session.showPrompt shownBySource).events = [] :=
  executed_eq_nil (session.ofInput_showPrompt shownBySource)

@[simp] theorem reads_showPrompt (session : Session) (shownBySource : Bool) :
    reads (session.showPrompt shownBySource).events = [] :=
  reads_eq_nil (session.ofInput_showPrompt shownBySource)

/-- A line that is answered is executed, and no other answer is. -/
@[simp] theorem executed_answer (session : Session) (reading : Reading) :
    executed (session.answer reading).events = reading.line?.toList := by
  cases reading with
  | line text =>
      rw [(session.answer_line text).2, executed_executeLine]
      rfl
  | overflow => exact executed_eq_nil (session.ofInput_report _)
  | interrupted => rfl
  | finished => rfl
  | failed => rfl

/-- Handling an answer does not ask for another one. -/
@[simp] theorem reads_answer (session : Session) (reading : Reading) :
    reads (session.answer reading).events = [] := by
  cases reading with
  | line text => rw [(session.answer_line text).2, reads_executeLine]
  | overflow => exact reads_eq_nil (session.ofInput_report _)
  | interrupted => rfl
  | finished => rfl
  | failed => rfl

end Session

/-- The line that was handled, if it was one. -/
def Handled.line? (handled : Handled) : Option String :=
  handled.reading.line?

/-- Exactly the lines that were handled have been executed, in their order. -/
theorem Session.History.executed_eq {first session : Session} {handled : List Handled}
    {events : List Event} (history : first.History handled session events) :
    executed events = handled.filterMap Handled.line? := by
  induction history with
  | start => rfl
  | sourced line before ih =>
      rw [executed_append, ih, executed_executeLine, List.filterMap_append]
      rfl
  | prompted shownBySource before ih =>
      rw [executed_append, ih, executed_showPrompt, List.append_nil]
  | answered reading before ih =>
      rw [executed_append, ih, executed_read, executed_answer, List.filterMap_append]
      cases reading <;> rfl

end CommandShell
