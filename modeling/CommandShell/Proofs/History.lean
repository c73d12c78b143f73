/-
Module: CommandShell.Proofs.History
Purpose: What a session has handled so far, step by step, whatever calls brought it there.
Trusted boundary: none
Main exports:
  Handled, Session.History, Session.History.take, Session.History.sourceLines,
  Session.History.asked, Session.History.turn, Session.History.run
-/
import CommandShell.Proofs.Turn

namespace CommandShell

/-- A line or another answer of a source, and the session that handles it. -/
structure Handled where
  session : Session
  reading : Reading
deriving Inhabited

namespace Session

/-- What can have happened to a session from its beginning on: the answers it has handled, the
session as it is now, and the events so far.  Lines are executed as startup lines, or a prompt is
shown and what the source answers is handled. -/
inductive History (first : Session) : List Handled → Session → List Event → Prop where
  | start : first.History [] first []
  | sourced {handled : List Handled} {session : Session} {events : List Event} (line : String)
      (before : first.History handled session events) :
      first.History (handled ++ [⟨session, .line line⟩]) (session.executeLine line).session
        (events ++ (session.executeLine line).events)
  | prompted {handled : List Handled} {session : Session} {events : List Event}
      (shownBySource : Bool) (before : first.History handled session events) :
      first.History handled (session.showPrompt shownBySource).session
        (events ++ (session.showPrompt shownBySource).events)
  | answered {handled : List Handled} {session : Session} {events : List Event}
      (reading : Reading) (before : first.History handled session events) :
      first.History (handled ++ [⟨session, reading⟩]) (session.answer reading).session
        (events ++ .read session.settings.shownPrompt reading :: (session.answer reading).events)

namespace History

variable {first session : Session} {handled : List Handled} {events : List Event}

/-- With one more answer there is one more place to cut: the end. -/
private theorem take_snoc {count : Nat} {later : Session} {one : Handled} {more : List Event}
    (history : first.History (handled ++ [one]) later (events ++ more))
    (before : ∃ earlier past, first.History (handled.take count) earlier past ∧ past <+: events) :
    ∃ earlier past, first.History ((handled ++ [one]).take count) earlier past ∧
      past <+: events ++ more := by
  by_cases within : count ≤ handled.length
  · obtain ⟨earlier, past, cut, begins⟩ := before
    rw [List.take_append_of_le_length within]
    exact ⟨earlier, past, cut, begins.trans (List.prefix_append events more)⟩
  · have whole : (handled ++ [one]).take count = handled ++ [one] := by
      apply List.take_of_length_le
      rw [List.length_append, List.length_singleton]
      exact Nat.lt_of_not_le within
    rw [whole]
    exact ⟨later, events ++ more, history, List.prefix_rfl⟩

/-- A history cut after any number of answers is the history of the session at that moment. -/
theorem take (history : first.History handled session events) (count : Nat) :
    ∃ earlier past, first.History (handled.take count) earlier past ∧ past <+: events := by
  induction history with
  | start =>
      rw [List.take_nil]
      exact ⟨first, [], .start, List.prefix_rfl⟩
  | sourced line before ih => exact take_snoc (before.sourced line) ih
  | prompted shownBySource before ih =>
      obtain ⟨earlier, past, cut, begins⟩ := ih
      exact ⟨earlier, past, cut, begins.trans (List.prefix_append _ _)⟩
  | answered reading before ih => exact take_snoc (before.answered reading) ih

end History
end Session

namespace Session.History

variable {first session : Session} {handled : List Handled} {events : List Event}

/-- Startup lines are handled in order, all of them or up to one that leaves the session. -/
theorem sourceLines (history : first.History handled session events) (lines : List String) :
    ∃ taken, first.History (handled ++ taken) (session.sourceLines lines).session
        (events ++ (session.sourceLines lines).events) ∧
      taken.map Handled.reading <+: lines.map Reading.line ∧
      ((session.sourceLines lines).result = .proceed →
        taken.map Handled.reading = lines.map Reading.line) := by
  induction lines generalizing session handled events with
  | nil =>
      refine ⟨[], ?_, List.prefix_rfl, fun _ => rfl⟩
      rw [Session.sourceLines, List.append_nil, List.append_nil]
      exact history
  | cons line rest ih =>
      rw [Session.sourceLines]
      have once := history.sourced line
      dsimp only
      cases left : (session.executeLine line).result with
      | exit =>
          refine ⟨[⟨session, .line line⟩], once, ?_, fun proceeds => ?_⟩
          · exact List.prefix_append [Reading.line line] (rest.map Reading.line)
          · cases left.symm.trans proceeds
      | proceed =>
          obtain ⟨taken, later, begins, whole⟩ := ih once
          refine ⟨⟨session, .line line⟩ :: taken, ?_, ?_, fun proceeds => ?_⟩
          · rw [List.append_cons, ← List.append_assoc]
            exact later
          · exact List.cons_prefix_cons.mpr ⟨rfl, begins⟩
          · exact congrArg (Reading.line line :: ·) (whole proceeds)

/-- A prompt is shown and an answer is handled. -/
theorem asked (history : first.History handled session events) (shownBySource : Bool)
    (reading : Reading) :
    let prompted := session.showPrompt shownBySource
    let answered := prompted.session.answer reading
    first.History (handled ++ [⟨prompted.session, reading⟩]) answered.session
      (events ++
        (prompted.events ++ .read session.settings.shownPrompt reading :: answered.events)) := by
  have answered := (history.prompted shownBySource).answered reading
  rw [session.settings_showPrompt shownBySource, List.append_assoc] at answered
  exact answered

/-- A turn handles what the source answers, unless the prompt fails, which ends the run. -/
theorem turn (history : first.History handled session events) (shownBySource : Bool)
    (reading : Reading) :
    ∃ taken, first.History (handled ++ taken) (session.turn shownBySource reading).session
        (events ++ (session.turn shownBySource reading).events) ∧
      (taken.map Handled.reading = [reading] ∨
        taken = [] ∧ (session.turn shownBySource reading).result ≠ none) := by
  rw [Session.turn]
  dsimp only
  cases (session.showPrompt shownBySource).result with
  | error error =>
      refine ⟨[], ?_, .inr ⟨rfl, Option.some_ne_none _⟩⟩
      rw [List.append_nil]
      exact history.prompted shownBySource
  | ok value =>
      refine ⟨[⟨(session.showPrompt shownBySource).session, reading⟩], ?_, .inl rfl⟩
      exact history.asked shownBySource reading

/-- A run handles the answers of its source, in their order, as far as it goes. -/
theorem run {σ : Type} [LineSource σ] (history : first.History handled session events)
    (source : σ) :
    ∃ taken, first.History (handled ++ taken) (session.run source).session
        (events ++ (session.run source).events) ∧
      taken.map Handled.reading = LineSource.readings taken.length source := by
  revert handled events
  apply Session.run_induction (motive := fun session source step =>
    ∀ {handled : List Handled} {events : List Event}, first.History handled session events →
      ∃ taken, first.History (handled ++ taken) step.session (events ++ step.events) ∧
        taken.map Handled.reading = LineSource.readings taken.length source)
  · intro session source result turned ended handled events history
    obtain ⟨taken, once, one | ⟨rfl, _⟩⟩ :=
      history.turn (LineSource.showsPrompt source) (LineSource.next source).1
    · refine ⟨taken, once, ?_⟩
      have length := congrArg List.length one
      rw [List.length_map] at length
      rw [one, length]
      rfl
    · exact ⟨[], once, rfl⟩
  · intro session source later turned goesOn ih handled events history
    obtain ⟨taken, once, one | ⟨_, ended⟩⟩ :=
      history.turn (LineSource.showsPrompt source) (LineSource.next source).1
    · obtain ⟨more, whole, rest⟩ := ih once
      have length := congrArg List.length one
      rw [List.length_map] at length
      refine ⟨taken ++ more, ?_, ?_⟩
      · rw [← List.append_assoc, ← List.append_assoc]
        exact whole
      · rw [List.map_append, one, rest, List.length_append, length, List.length_singleton,
          Nat.add_comm]
        rfl
    · exact absurd goesOn ended

end Session.History
end CommandShell
