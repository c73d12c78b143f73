/-
Module: CommandShell.Proofs.ErrorStream
Purpose: A session does not depend on what becomes of its error stream.
Trusted boundary: none
Main exports:
  Event.openErr, Session.openErr, Session.openErr_twins, Session.errorStream_unheeded
-/
import CommandShell.Proofs.Delivery
import CommandShell.Proofs.ExecutedLines

namespace CommandShell

/-!
The session with an error stream that takes everything is the session with any other, but for what
the events say about reports.  So it can be computed from the other, event by event.
-/

/-- An event as it is when the error stream takes everything. -/
def Event.openErr : Event → Event
  | .reported cause write => .reported cause ⟨write.offered, write.offered⟩
  | .flushed stream succeeded => .flushed stream (stream == .error || succeeded)
  | event => event

/-- The same session with an error stream that takes everything. -/
def Session.openErr (session : Session) : Session :=
  { session with err := {} }

section

variable {α : Type} (events : List Event)

/-- A view that does not look at reports sees the same. -/
theorem filterMap_openErr {view : Event → Option α}
    (blind : ∀ event : Event, view event.openErr = view event) :
    (events.map Event.openErr).filterMap view = events.filterMap view := by
  rw [List.filterMap_map]
  exact congrArg (fun view => events.filterMap view) (funext blind)

/-- A view of any number of items for each event sees the same, if it does not look at reports. -/
theorem flatMap_openErr {view : Event → List α}
    (blind : ∀ event : Event, view event.openErr = view event) :
    (events.map Event.openErr).flatMap view = events.flatMap view := by
  rw [List.flatMap_map]
  exact congrArg (fun view => events.flatMap view) (funext blind)

end

/-- What the session itself does not do is no report. -/
theorem Event.openErr_of_ofSession {event : Event} (other : event.ofSession = false) :
    event.openErr = event := by
  cases event with
  | reported => cases other
  | flushed => cases other
  | _ => rfl

namespace Session

/-- A prompt does not depend on the error stream. -/
theorem showPrompt_openErr (session : Session) (shownBySource : Bool) :
    session.openErr.showPrompt shownBySource =
      let prompted := session.showPrompt shownBySource
      ⟨prompted.result, prompted.session.openErr, prompted.events.map Event.openErr⟩ := by
  change showPrompt { session with err := {} } shownBySource = _
  unfold showPrompt
  dsimp only
  split
  · rfl
  · split <;> rfl

/-- Nor does a command; only what is reported of it does. -/
theorem perform_openErr (session : Session) (tokens : List String) :
    session.openErr.perform tokens =
      let performed := session.perform tokens
      ⟨performed.result, performed.session.openErr, performed.events.map Event.openErr⟩ := by
  have kept : (session.world.perform session.settings tokens).events.map Event.openErr =
      (session.world.perform session.settings tokens).events := by
    apply (List.map_congr_left _).trans (List.map_id _)
    intro event member
    exact Event.openErr_of_ofSession (World.ofSession_perform _ _ _ event member)
  change perform { session with err := {} } tokens = _
  unfold perform
  dsimp only
  split
  · rw [kept]
    rfl
  · rw [List.map_append, kept]
    rfl

/-- A report arrives as a whole, and everything else stays as it is. -/
theorem report_openErr (session : Session) (cause : ShellError) :
    session.openErr.report cause =
      let reported := session.report cause
      ⟨(), reported.session.openErr, reported.events.map Event.openErr⟩ := by
  simp only [report, openErr, List.map_cons, List.map_nil, Event.openErr, Sink.offered_write]
  rfl

/-- A line comes to the same but for what arrives of its report. -/
theorem executeLine_openErr (session : Session) (line : String) :
    session.openErr.executeLine line =
      let executed := session.executeLine line
      ⟨executed.result, executed.session.openErr, executed.events.map Event.openErr⟩ := by
  unfold executeLine
  generalize tokenize line = tokens
  cases tokens with
  | nil => rfl
  | cons name arguments =>
      dsimp only
      rw [perform_openErr]
      dsimp only
      cases (session.perform (name :: arguments)).result with
      | ok flow =>
          simp only [List.map_cons, List.map_append, List.map_nil]
          rfl
      | error error =>
          simp only [List.map_cons, List.map_append, List.map_nil, report_openErr]
          rfl

/-- A session and the same with an error stream that takes everything stay so. -/
theorem openErr_twins :
    Twins (fun one other => other = one.openErr)
      (fun one other => other = one.map Event.openErr) where
  nothing := rfl
  append := by
    rintro before _ after _ rfl rfl
    exact List.map_append.symm
  read := by
    rintro one _ rfl reading
    rfl
  line := by
    rintro one _ rfl line
    rw [executeLine_openErr]
    exact ⟨rfl, rfl, rfl⟩
  overflow := by
    rintro one _ rfl
    change Step.Resembles _ _ _ (one.openErr.report (.overflow one.settings.lineLimit))
    rw [report_openErr]
    exact ⟨rfl, rfl, rfl⟩
  prompt := by
    rintro one _ rfl shownBySource
    rw [showPrompt_openErr]
    exact ⟨rfl, rfl, rfl⟩

/-- A broken error stream disturbs nothing.  A session whose error stream takes `room` bytes, and
whose flushes of it may all fail, reads and executes the same and comes to the same as a session
whose error stream takes everything: to the same result, in the same world, with the same output of
its own and of its programs.  Event by event the two differ only in what is said of reports.  What
arrives of the diagnostics is their first `room` bytes. -/
theorem errorStream_unheeded {σ : Type} [LineSource σ] (session : Session) (room : Nat)
    (flushes : Bool) (lines : List String) (source : σ) :
    let broken := { session with err := ⟨some room, flushes⟩ }
    let sound := { session with err := {} }
    let limited := broken.play lines source
    let unlimited := sound.play lines source
    (broken.sourceLines lines).result = (sound.sourceLines lines).result ∧
      limited.result = unlimited.result ∧
      { limited.session with err := {} } = unlimited.session ∧
      reads limited.events = reads unlimited.events ∧
      executed limited.events = executed unlimited.events ∧
      shellWrote .output limited.events = shellWrote .output unlimited.events ∧
      (∀ stream, programsWrote stream limited.events = programsWrote stream unlimited.events) ∧
      limited.events.map Event.openErr = unlimited.events ∧
      shellWrote .error limited.events = (shellWrote .error unlimited.events).take room := by
  intro broken sound limited unlimited
  have opened : sound = broken.openErr := rfl
  have sourced := openErr_twins.sourceLines opened lines
  have played := openErr_twins.play opened lines source
  have events : unlimited.events = limited.events.map Event.openErr := played.events
  have offers : offered .error unlimited.events = offered .error limited.events := by
    rw [events]
    exact flatMap_openErr _ fun event => by cases event <;> rfl
  refine ⟨sourced.result, played.result, played.session.symm, ?_, ?_, ?_, ?_, events.symm, ?_⟩
  · rw [events]
    exact (filterMap_openErr _ fun event => by cases event <;> rfl).symm
  · rw [events]
    exact (filterMap_openErr _ fun event => by cases event <;> rfl).symm
  · rw [events]
    exact (flatMap_openErr _ fun event => by cases event <;> rfl).symm
  · intro stream
    rw [events]
    exact (flatMap_openErr _ fun event => by cases event <;> rfl).symm
  · calc shellWrote .error limited.events
        = (offered .error limited.events).take room := by
          rw [(broken.accounts_play lines source).wrote]
          exact Sink.taken_of_room_eq_some rfl _
      _ = (offered .error unlimited.events).take room := by rw [offers]
      _ = (shellWrote .error unlimited.events).take room := by
          rw [(sound.accounts_play lines source).wrote]
          rw [Sink.taken_of_room_eq_none rfl]

end Session
end CommandShell
