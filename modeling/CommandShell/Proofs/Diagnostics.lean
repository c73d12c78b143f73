/-
Module: CommandShell.Proofs.Diagnostics
Purpose: How many diagnostics a session has written, at every moment of it.
Trusted boundary: none
Main exports:
  diagnostics, Handled.Fails, Handled.Misreports, failures, misreports, Session.Diagnoses,
  Session.shellWrote_error_answer, Session.diagnostics_of_history
-/
import CommandShell.Proofs.CommandFailures
import CommandShell.Proofs.History

namespace CommandShell

/-- The diagnostic, so many times. -/
def diagnostics (count : Nat) : Bytes :=
  (List.replicate count diagnostic).flatten

/-- Diagnostics follow one another with nothing between them. -/
theorem diagnostics_add (one other : Nat) :
    diagnostics (one + other) = diagnostics one ++ diagnostics other := by
  rw [diagnostics, diagnostics, diagnostics, ← List.flatten_append,
    List.replicate_append_replicate]

theorem diagnostics_one : diagnostics 1 = diagnostic := by
  rw [diagnostics, List.replicate_one, List.flatten_singleton]

/-- The bytes tell how often the diagnostic has been written. -/
theorem diagnostics_injective {one other : Nat} (same : diagnostics one = diagnostics other) :
    one = other := by
  have lengths := congrArg List.length same
  simp only [diagnostics, List.length_flatten, List.map_replicate, List.sum_replicate_nat]
    at lengths
  exact Nat.eq_of_mul_eq_mul_right (by decide : 0 < diagnostic.length) lengths

/-- What the shell writes during one part and then another is written in this order. -/
@[simp] theorem shellWrote_append (stream : Stream) (one other : List Event) :
    shellWrote stream (one ++ other) = shellWrote stream one ++ shellWrote stream other :=
  List.flatMap_append

@[simp] theorem shellWrote_cons (stream : Stream) (event : Event) (events : List Event) :
    shellWrote stream (event :: events) = event.shellBytes stream ++ shellWrote stream events :=
  List.flatMap_cons

@[simp] theorem shellWrote_nil (stream : Stream) : shellWrote stream [] = [] := rfl

namespace Session

variable {session : Session}

/-- Carrying out a command writes no diagnostic. -/
theorem shellWrote_error_perform (session : Session) (tokens : List String) :
    shellWrote .error (session.perform tokens).events = [] := by
  apply List.flatMap_eq_nil_iff.mpr
  intro event member
  rcases session.ofSession_perform tokens event member with other | ⟨write, rfl⟩
  · exact Event.shellBytes_of_ofSession other .error
  · rfl

/-- Reporting a failure writes the diagnostic once, if the error stream takes everything. -/
theorem shellWrote_error_report (accepts : session.err.room = none) (cause : ShellError) :
    shellWrote .error (session.report cause).events = diagnostic := by
  simp [report, Event.shellBytes, Sink.write, accepts]

/-- A line is diagnosed once, and then only if its command fails or misreports. -/
theorem shellWrote_error_executeLine (accepts : session.err.room = none) (line : String) :
    (session.Fails (tokenize line) ∨ session.Misreports (tokenize line) →
      shellWrote .error (session.executeLine line).events = diagnostic ∧
        (session.executeLine line).result = .proceed) ∧
    (¬ session.Fails (tokenize line) → ¬ session.Misreports (tokenize line) →
      shellWrote .error (session.executeLine line).events = []) := by
  rw [← result_perform_error_iff]
  have cases := session.executeLine_cases line
  generalize session.executeLine line = executed at cases
  cases cases with
  | blank blank =>
      rw [blank]
      refine ⟨?_, fun _ _ => rfl⟩
      intro failed
      obtain ⟨error, none⟩ := failed
      cases none
  | succeeded command succeeded =>
      constructor
      · intro fails
        obtain ⟨error, failed⟩ := fails
        cases succeeded.symm.trans failed
      · intro _ _
        simp [shellWrote_error_perform, Event.shellBytes]
  | @failed error command failed =>
      have accepts' : (session.perform (tokenize line)).session.err.room = none := by
        rw [err_perform]
        exact accepts
      constructor
      · intro _
        simp [shellWrote_error_perform, Event.shellBytes, shellWrote_error_report accepts']
      · intro passes reports
        rcases result_perform_error_iff.mp ⟨error, failed⟩ with fails | misreports
        · exact absurd fails passes
        · exact absurd misreports reports

/-- A prompt is no diagnostic. -/
theorem shellWrote_error_showPrompt (session : Session) (shownBySource : Bool) :
    shellWrote .error (session.showPrompt shownBySource).events = [] := by
  apply List.flatMap_eq_nil_iff.mpr
  intro event member
  rcases of_mem_showPrompt member with ⟨write, rfl⟩ | ⟨succeeded, rfl⟩
  · rfl
  · rfl

/-- Reporting does not use up an error stream that takes everything. -/
theorem room_report (accepts : session.err.room = none) (cause : ShellError) :
    (session.report cause).session.err.room = none := by
  simp [report, Sink.written, accepts]

/-- Nor does executing a line. -/
theorem room_executeLine (accepts : session.err.room = none) (line : String) :
    (session.executeLine line).session.err.room = none := by
  have cases := session.executeLine_cases line
  generalize session.executeLine line = executed at cases
  cases cases with
  | blank => exact accepts
  | succeeded => rw [err_perform]; exact accepts
  | @failed error =>
      apply room_report _ (.command error)
      rw [err_perform]
      exact accepts

/-- Nor does handling an answer, whatever it is. -/
theorem room_answer (accepts : session.err.room = none) (reading : Reading) :
    (session.answer reading).session.err.room = none := by
  cases reading with
  | line text =>
      rw [(session.answer_line text).1]
      exact room_executeLine accepts text
  | overflow => exact room_report accepts (.overflow session.settings.lineLimit)
  | interrupted => exact accepts
  | finished => exact accepts
  | failed => exact accepts

end Session

/-! ### Counting -/

namespace Handled

/-- The answer is that a line was too long. -/
def Overflows (handled : Handled) : Prop :=
  handled.reading = .overflow

/-- The answer is a line that fails. -/
def Fails (handled : Handled) : Prop :=
  ∃ line, handled.reading = .line line ∧ handled.session.Fails (tokenize line)

/-- The answer is a line that misreports. -/
def Misreports (handled : Handled) : Prop :=
  ∃ line, handled.reading = .line line ∧ handled.session.Misreports (tokenize line)

end Handled

open Classical in
/-- The number of lines that are too long, and of lines that fail. -/
noncomputable def failures (handled : List Handled) : Nat :=
  handled.countP (fun one => decide one.Overflows) + handled.countP (fun one => decide one.Fails)

open Classical in
/-- The number of lines that misreport. -/
noncomputable def misreports (handled : List Handled) : Nat :=
  handled.countP fun one => decide one.Misreports

/-- Failures are counted answer by answer. -/
theorem failures_append (one other : List Handled) :
    failures (one ++ other) = failures one + failures other := by
  simp only [failures, List.countP_append]
  omega

/-- Misreports are counted answer by answer. -/
theorem misreports_append (one other : List Handled) :
    misreports (one ++ other) = misreports one + misreports other :=
  List.countP_append

/-- There are no misreports if and only if no answer that was handled is one. -/
theorem misreports_eq_zero_iff {handled : List Handled} :
    misreports handled = 0 ↔ ∀ one ∈ handled, ¬ one.Misreports := by
  simp [misreports, List.countP_eq_zero]

open Classical in
/-- A line that is executed counts once, if it fails or misreports. -/
theorem count_line (session : Session) (line : String) :
    failures [⟨session, .line line⟩] + misreports [⟨session, .line line⟩] =
      if session.Fails (tokenize line) ∨ session.Misreports (tokenize line) then 1 else 0 := by
  by_cases fails : session.Fails (tokenize line)
  · have reports : ¬ session.Misreports (tokenize line) :=
      fun misreports => misreports.not_fails fails
    simp [failures, misreports, Handled.Overflows, Handled.Fails, Handled.Misreports, fails,
      reports]
  · simp [failures, misreports, Handled.Overflows, Handled.Fails, Handled.Misreports, fails,
      List.countP_cons]

/-- That a line was too long counts once. -/
theorem count_overflow (session : Session) :
    failures [⟨session, .overflow⟩] + misreports [⟨session, .overflow⟩] = 1 := by
  simp [failures, misreports, Handled.Overflows, Handled.Fails, Handled.Misreports]

/-- No other answer counts. -/
theorem count_eq_zero (session : Session) {reading : Reading} (short : reading ≠ .overflow)
    (other : ∀ line, reading ≠ .line line) :
    failures [⟨session, reading⟩] + misreports [⟨session, reading⟩] = 0 := by
  simp [failures, misreports, Handled.Overflows, Handled.Fails, Handled.Misreports, short, other]

/-- What is handled adds a diagnostic for each failure and for each line that misreports. -/
theorem Handled.shellWrote_error_answer (handled : Handled)
    (accepts : handled.session.err.room = none) :
    shellWrote .error (handled.session.answer handled.reading).events =
      diagnostics (failures [handled] + misreports [handled]) := by
  obtain ⟨session, reading⟩ := handled
  cases reading with
  | line line =>
      have diagnosed := Session.shellWrote_error_executeLine accepts line
      rw [count_line, (session.answer_line line).2]
      by_cases failed : session.Fails (tokenize line) ∨ session.Misreports (tokenize line)
      · rw [if_pos failed, diagnostics_one]
        exact (diagnosed.1 failed).1
      · rw [if_neg failed]
        obtain ⟨passes, reports⟩ := not_or.mp failed
        exact diagnosed.2 passes reports
  | overflow =>
      rw [count_overflow, diagnostics_one]
      exact Session.shellWrote_error_report accepts _
  | interrupted => rw [count_eq_zero session (by simp) (by simp)]; rfl
  | finished => rw [count_eq_zero session (by simp) (by simp)]; rfl
  | failed => rw [count_eq_zero session (by simp) (by simp)]; rfl

/-! ### Histories -/

namespace Session

/-- An error stream that accepts everything goes on doing so. -/
theorem History.room {first session : Session} {handled : List Handled} {events : List Event}
    (history : first.History handled session events) (accepts : first.err.room = none) :
    session.err.room = none ∧ ∀ one ∈ handled, one.session.err.room = none := by
  have snoc : ∀ {handled : List Handled} {one : Handled},
      (∀ other ∈ handled, other.session.err.room = none) → one.session.err.room = none →
        ∀ other ∈ handled ++ [one], other.session.err.room = none := by
    intro handled one before last other member
    rcases List.mem_append.mp member with member | member
    · exact before other member
    · obtain rfl := List.mem_singleton.mp member
      exact last
  induction history with
  | start =>
      refine ⟨accepts, ?_⟩
      intro one member
      cases member
  | sourced line _ ih => exact ⟨room_executeLine ih.1 line, snoc ih.2 ih.1⟩
  | prompted shownBySource _ ih =>
      refine ⟨?_, ih.2⟩
      rw [err_showPrompt]
      exact ih.1
  | answered reading _ ih => exact ⟨room_answer ih.1 reading, snoc ih.2 ih.1⟩

/-- The diagnostics of a history are those of all that was handled in it. -/
theorem History.shellWrote_error {first session : Session} {handled : List Handled}
    {events : List Event} (history : first.History handled session events)
    (accepts : first.err.room = none) :
    shellWrote .error events = diagnostics (failures handled + misreports handled) := by
  have snoc : ∀ (handled : List Handled) (one : Handled),
      failures (handled ++ [one]) + misreports (handled ++ [one]) =
        failures handled + misreports handled + (failures [one] + misreports [one]) := by
    intro handled one
    rw [failures_append, misreports_append]
    omega
  induction history with
  | start => rfl
  | @sourced handled session events line before ih =>
      have step := Handled.shellWrote_error_answer ⟨session, .line line⟩ (before.room accepts).1
      dsimp only at step
      rw [(session.answer_line line).2] at step
      rw [shellWrote_append, ih, step, snoc, diagnostics_add (failures handled + _)]
  | prompted shownBySource before ih =>
      rw [shellWrote_append, ih, shellWrote_error_showPrompt, List.append_nil]
  | @answered handled session events reading before ih =>
      have step := Handled.shellWrote_error_answer ⟨session, reading⟩ (before.room accepts).1
      rw [shellWrote_append, shellWrote_cons, ih, step, snoc,
        diagnostics_add (failures handled + _)]
      rfl

/-- What an executed line has to do with diagnostics, by what comes of it. -/
structure Diagnoses (session : Session) (line : String) : Prop where
  /-- A line that fails or misreports is diagnosed once, and the session goes on. -/
  failing : session.Fails (tokenize line) ∨ session.Misreports (tokenize line) →
    shellWrote .error (session.executeLine line).events = diagnostic ∧
      (session.executeLine line).result = .proceed ∧
      (session.answer (.line line)).result = none
  passing : ¬ session.Fails (tokenize line) → ¬ session.Misreports (tokenize line) →
    shellWrote .error (session.executeLine line).events = []
  /-- Whatever becomes of a program that was started, nothing is diagnosed. -/
  started : ∀ name rest parsed program executable, tokenize line = name :: rest →
    session.world.Launches session.settings name rest parsed program →
    parsed.start program session.settings.targetMode session.world.machine = .ok executable →
    shellWrote .error (session.executeLine line).events = []
  /-- Nor is a redirected program that cannot be started, unless that misreports. -/
  diverted : ∀ name rest parsed program cause, tokenize line = name :: rest →
    session.world.Launches session.settings name rest parsed program → parsed.targets ≠ none →
    parsed.start program session.settings.targetMode session.world.machine = .error cause →
    ¬ parsed.Seals session.settings.targetMode session.world.machine →
    shellWrote .error (session.executeLine line).events = []

/-- Where the error stream takes everything, every line is diagnosed as it should be. -/
theorem diagnoses {session : Session} (accepts : session.err.room = none) (line : String) :
    session.Diagnoses line where
  failing := by
    intro failed
    obtain ⟨once, proceeds⟩ := (shellWrote_error_executeLine accepts line).1 failed
    refine ⟨once, proceeds, ?_⟩
    simp only [answer, proceeds]
  passing := (shellWrote_error_executeLine accepts line).2
  started := by
    intro name rest parsed program executable tokens launches started
    apply (shellWrote_error_executeLine accepts line).2
    · rw [tokens, fails_iff_of_prepares launches.toPrepares]
      intro failed
      rcases failed with unopened | ⟨⟨cause, unstarted⟩, _⟩
      · exact unopened launches.opens
      · cases started.symm.trans unstarted
    · rw [tokens, misreports_iff_of_prepares launches.toPrepares]
      intro misreports
      obtain ⟨_, ⟨cause, unstarted⟩, _⟩ := misreports
      cases started.symm.trans unstarted
  diverted := by
    intro name rest parsed program cause tokens launches redirected unstarted unsealed
    apply (shellWrote_error_executeLine accepts line).2
    · rw [tokens, fails_iff_of_prepares launches.toPrepares]
      intro failed
      rcases failed with unopened | ⟨_, inherited⟩
      · exact unopened launches.opens
      · exact redirected inherited
    · rw [tokens, misreports_iff_of_prepares launches.toPrepares]
      exact fun misreports => unsealed misreports.2.2

/-- A session whose new targets may be read only, in the root directory of a machine that has one
file in its search path, `/bin/plain`, which may not be run. -/
def withSealedTargets : Session where
  settings.targetMode := 0o444
  world.machine.files := ⟨[([bytesOf "bin"], .directory 0o755),
    ([bytesOf "bin", bytesOf "plain"], .file 0o644 (.text []))]⟩

/-- The program is missing the right to run, and the report of that has to go to a file that may not
be opened for writing again. -/
theorem withSealedTargets_misreports : withSealedTargets.Misreports (tokenize "plain > r") := by
  have accepted : withSealedTargets.settings.redirection.Accepts ["plain", ">", "r"]
      ⟨["plain"], some ⟨"r.out", "r.err"⟩⟩ := Redirection.Rules.parse_eq_ok_iff.mp rfl
  have resolved : (withSealedTargets.world.resolution withSealedTargets.settings "plain").result =
      .ok "/bin/plain" := rfl
  have opens : withSealedTargets.world.machine.CanOpen withSealedTargets.settings.targetMode
      [bytesOf "r.out", bytesOf "r.err"] := ⟨_, _, rfl, _, _, rfl, trivial⟩
  have seals : Redirection.Parsed.Seals ⟨["plain"], some ⟨"r.out", "r.err"⟩⟩
      withSealedTargets.settings.targetMode withSealedTargets.world.machine :=
    ⟨_, _, _, rfl, rfl, ⟨_, _, rfl⟩, by decide⟩
  exact .sealed ⟨⟨by decide, accepted, resolved⟩, opens⟩ rfl seals

/-- At every moment of a session, however lines were given to it, the error stream holds one
diagnostic for each line that was too long and for each that failed, and one for each that
misreported: if there was none of the latter, and only then, the failures are all there is. -/
theorem diagnostics_of_history (first : Session) (accepts : first.err.room = none) :
    ∀ handled session events, first.History handled session events →
      shellWrote .error events = diagnostics (failures handled + misreports handled) ∧
      (shellWrote .error events = diagnostics (failures handled) ↔
        ∀ one ∈ handled, ¬ one.Misreports) ∧
      (∀ one ∈ handled, ∀ line, one.reading = .line line → one.session.Diagnoses line) ∧
      (∀ count, ∃ earlier past,
        first.History (handled.take count) earlier past ∧ past <+: events) ∧
      (∀ lines, ∃ taken, first.History (handled ++ taken) (session.sourceLines lines).session
          (events ++ (session.sourceLines lines).events) ∧
        taken.map Handled.reading <+: lines.map Reading.line ∧
        ((session.sourceLines lines).result = .proceed →
          taken.map Handled.reading = lines.map Reading.line)) ∧
      ∀ {σ : Type} [LineSource σ] (source : σ), ∃ taken,
        first.History (handled ++ taken) (session.run source).session
          (events ++ (session.run source).events) ∧
        taken.map Handled.reading = LineSource.readings taken.length source := by
  intro handled session events history
  have written := history.shellWrote_error accepts
  refine ⟨written, ?_, ?_, history.take, history.sourceLines, history.run⟩
  · rw [written, ← misreports_eq_zero_iff]
    constructor
    · intro same
      exact Nat.add_left_cancel (diagnostics_injective same)
    · intro none
      rw [none, Nat.add_zero]
  · intro one member line _
    exact diagnoses ((history.room accepts).2 one member) line

/-- A directory that is not there is a failure, and a report in the wrong place is one more
diagnostic. -/
theorem diagnostics_of_history_sealed :
    withSealedTargets.err.room = none ∧
      let one : Handled := ⟨withSealedTargets, .line "cd nowhere"⟩
      let other : Handled :=
        ⟨(withSealedTargets.executeLine "cd nowhere").session, .line "plain > r"⟩
      let events := (withSealedTargets.executeLine "cd nowhere").events ++
        (other.session.executeLine "plain > r").events
      shellWrote .error events = diagnostics 2 ∧
        shellWrote .error events =
          diagnostics (failures [one, other] + misreports [one, other]) := by
  refine ⟨rfl, by decide, ?_⟩
  have once : withSealedTargets.History [⟨withSealedTargets, .line "cd nowhere"⟩] _ _ :=
    History.start.sourced "cd nowhere"
  have history := once.sourced "plain > r"
  exact (diagnostics_of_history withSealedTargets rfl _ _ _ history).1

/-- The diagnostic is written though no line is too long and none fails. -/
theorem diagnostics_ne_failures :
    withSealedTargets.err.room = none ∧ ∃ handled session events,
      withSealedTargets.History handled session events ∧
        shellWrote .error events ≠ diagnostics (failures handled) := by
  have history : withSealedTargets.History [⟨withSealedTargets, .line "plain > r"⟩] _ _ :=
    History.start.sourced "plain > r"
  refine ⟨rfl, _, _, _, history, ?_⟩
  intro same
  rw [history.shellWrote_error rfl] at same
  have none : misreports [⟨withSealedTargets, .line "plain > r"⟩] = 0 :=
    Nat.add_left_cancel (diagnostics_injective same)
  apply misreports_eq_zero_iff.mp none _ (List.mem_singleton_self _)
  exact ⟨"plain > r", rfl, withSealedTargets_misreports⟩

end Session
end CommandShell
