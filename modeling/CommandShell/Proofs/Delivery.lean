/-
Module: CommandShell.Proofs.Delivery
Purpose: What arrives of all that a session offers to its streams.
Trusted boundary: none
Main exports:
  offered, Sink.taken, Sink.taken_append, Session.sink, Session.Accounts,
  Session.History.accounts, Session.accounts_turn, Session.accounts_sourceLines,
  Session.accounts_run, Session.accounts_play
-/
import CommandShell.Proofs.Diagnostics
import CommandShell.Proofs.Resemblance

namespace CommandShell

/-!
A session writes to a stream here and there, and each write may be cut short.  But a stream that
takes so many bytes does not look at where one write ends and the next begins: what arrives in the
end is the first so many bytes of all that was offered.
-/

/-- What an event of the shell itself offers to a stream, whatever arrives of it. -/
def Event.offeredBytes (stream : Stream) : Event → Bytes
  | .prompted write => if stream = .output then write.offered else []
  | .printed write => if stream = .output then write.offered else []
  | .reported _ write => if stream = .error then write.offered else []
  | _ => []

/-- What the shell offers to one of its own streams. -/
def offered (stream : Stream) (events : List Event) : Bytes :=
  events.flatMap (Event.offeredBytes stream)

@[simp] theorem offered_nil (stream : Stream) : offered stream [] = [] := rfl

@[simp] theorem offered_cons (stream : Stream) (event : Event) (events : List Event) :
    offered stream (event :: events) = event.offeredBytes stream ++ offered stream events :=
  List.flatMap_cons

@[simp] theorem offered_append (stream : Stream) (one other : List Event) :
    offered stream (one ++ other) = offered stream one ++ offered stream other :=
  List.flatMap_append

/-- The events that write to a stream of the shell. -/
def Event.writes : Event → Bool
  | .prompted _ => true
  | .printed _ => true
  | .reported .. => true
  | _ => false

/-- An event that writes nothing offers nothing and brings nothing. -/
theorem Event.bytes_of_writes {event : Event} (silent : event.writes = false) (stream : Stream) :
    event.shellBytes stream = [] ∧ event.offeredBytes stream = [] := by
  cases event with
  | prompted => cases silent
  | printed => cases silent
  | reported => cases silent
  | _ => exact ⟨rfl, rfl⟩

/-- Only the session itself writes to its streams. -/
theorem Event.writes_of_ofSession {event : Event} (other : event.ofSession = false) :
    event.writes = false := by
  cases event with
  | prompted => cases other
  | printed => cases other
  | reported => cases other
  | _ => rfl

namespace Sink

/-- What a stream takes of bytes that are offered to it. -/
def taken (sink : Sink) (bytes : Bytes) : Bytes :=
  (sink.write bytes).delivered

/-- A write offers all of its bytes, also where it is cut short. -/
@[simp] theorem offered_write (sink : Sink) (bytes : Bytes) :
    (sink.write bytes).offered = bytes := by
  rcases sink with ⟨_ | room, flushes⟩ <;> rfl

@[simp] theorem taken_nil (sink : Sink) : sink.taken [] = [] := by
  rcases sink with ⟨_ | room, flushes⟩
  · rfl
  · exact List.take_nil

@[simp] theorem written_nil (sink : Sink) : sink.written [] = sink := by
  rcases sink with ⟨_ | room, flushes⟩ <;> rfl

/-- It does not matter whether bytes are offered at once or in two parts: to what arrives. -/
theorem taken_append (sink : Sink) (one other : Bytes) :
    sink.taken (one ++ other) = sink.taken one ++ (sink.written one).taken other := by
  rcases sink with ⟨_ | room, flushes⟩
  · rfl
  · exact List.take_append

/-- And to the stream. -/
theorem written_append (sink : Sink) (one other : Bytes) :
    sink.written (one ++ other) = (sink.written one).written other := by
  rcases sink with ⟨_ | room, flushes⟩
  · rfl
  · simp only [written, Option.map_some, List.length_append, Nat.sub_add_eq]

/-- A stream without a limit takes everything. -/
theorem taken_of_room_eq_none {sink : Sink} (accepts : sink.room = none) (bytes : Bytes) :
    sink.taken bytes = bytes := by
  rw [taken, write, accepts]

/-- A stream with a limit takes the first so many bytes. -/
theorem taken_of_room_eq_some {sink : Sink} {room : Nat} (limited : sink.room = some room)
    (bytes : Bytes) : sink.taken bytes = bytes.take room := by
  rw [taken, write, limited]

end Sink

/-- The stream of the shell that goes by this name. -/
def Session.sink (session : Session) : Stream → Sink
  | .output => session.out
  | .error => session.err

/-- Events that lead from one session to another account for its streams: what arrived is what the
streams of the first take of what was offered, and the second has the streams that this leaves. -/
structure Session.Accounts (first last : Session) (events : List Event) : Prop where
  wrote : ∀ stream, shellWrote stream events = (first.sink stream).taken (offered stream events)
  sink : ∀ stream, last.sink stream = (first.sink stream).written (offered stream events)

namespace Session

variable {first mid last session : Session} {events more : List Event}

/-- The parts of a session account for the whole: the room that the first leaves is what the second
finds. -/
theorem Accounts.append (earlier : first.Accounts mid events) (later : mid.Accounts last more) :
    first.Accounts last (events ++ more) where
  wrote stream := by
    rw [shellWrote_append, offered_append, Sink.taken_append, ← earlier.sink, earlier.wrote,
      later.wrote]
  sink stream := by
    rw [offered_append, Sink.written_append, ← earlier.sink, later.sink]

/-- Events that write nothing leave the streams alone. -/
theorem Accounts.of_silent (same : ∀ stream, last.sink stream = first.sink stream)
    (silent : ∀ event ∈ events, event.writes = false) : first.Accounts last events := by
  have none : ∀ stream, shellWrote stream events = [] ∧ offered stream events = [] := by
    intro stream
    constructor
    · apply List.flatMap_eq_nil_iff.mpr
      intro event member
      exact (Event.bytes_of_writes (silent event member) stream).1
    · apply List.flatMap_eq_nil_iff.mpr
      intro event member
      exact (Event.bytes_of_writes (silent event member) stream).2
  constructor
  · intro stream
    rw [(none stream).1, (none stream).2, Sink.taken_nil]
  · intro stream
    rw [(none stream).2, Sink.written_nil, same]

theorem Accounts.refl (session : Session) : session.Accounts session [] :=
  .of_silent (fun _ => rfl) (fun _ none => nomatch none)

/-- An event that writes nothing leaves nothing to account for. -/
theorem Accounts.silent {event : Event} (silent : event.writes = false) :
    session.Accounts session [event] := by
  apply Accounts.of_silent (fun _ => rfl)
  intro other member
  obtain rfl := List.mem_singleton.mp member
  exact silent

/-- Whether the output stream can be flushed does not change. -/
theorem Accounts.flushes (accounts : first.Accounts last events) :
    last.out.flushes = first.out.flushes := by
  have left : last.out = first.out.written (offered .output events) := accounts.sink .output
  rw [left]
  rfl

/-- One write to one of the streams. -/
theorem Accounts.of_write (stream : Stream) (bytes : Bytes) {event : Event}
    (wrote : ∀ other, event.shellBytes other =
      if other = stream then ((first.sink stream).write bytes).delivered else [])
    (offers : ∀ other, event.offeredBytes other =
      if other = stream then ((first.sink stream).write bytes).offered else [])
    (sink : ∀ other, last.sink other =
      if other = stream then (first.sink stream).written bytes else first.sink other) :
    first.Accounts last [event] := by
  constructor
  · intro other
    rw [shellWrote_cons, shellWrote_nil, offered_cons, offered_nil, List.append_nil,
      List.append_nil, wrote, offers, Sink.offered_write]
    split
    case isTrue here => rw [here, Sink.taken]
    case isFalse => exact (Sink.taken_nil _).symm
  · intro other
    rw [offered_cons, offered_nil, List.append_nil, sink, offers, Sink.offered_write]
    split
    case isTrue here => rw [here]
    case isFalse => exact (Sink.written_nil _).symm

/-- What a command prints is its one write to the streams of the shell. -/
theorem accounts_perform (session : Session) (tokens : List String) :
    session.Accounts (session.perform tokens).session (session.perform tokens).events := by
  have during : session.Accounts
      { session with world := (session.world.perform session.settings tokens).world }
      (session.world.perform session.settings tokens).events := by
    apply Accounts.of_silent (fun stream => by cases stream <;> rfl)
    intro event member
    exact Event.writes_of_ofSession (World.ofSession_perform _ _ _ event member)
  unfold perform
  dsimp only
  split
  · exact during
  · exact during.append (.of_write .output (session.world.perform session.settings tokens).printed
      (fun _ => rfl) (fun _ => rfl) (fun stream => by cases stream <;> rfl))

/-- A report is one write to the error stream. -/
theorem accounts_report (session : Session) (cause : ShellError) :
    session.Accounts (session.report cause).session (session.report cause).events := by
  have reported : session.Accounts { session with err := session.err.written diagnostic }
      [.reported cause (session.err.write diagnostic)] :=
    .of_write .error diagnostic (fun _ => rfl) (fun _ => rfl)
      (fun stream => by cases stream <;> rfl)
  exact reported.append (.silent rfl)

/-- A line prints on one stream and is reported on the other. -/
theorem accounts_executeLine (session : Session) (line : String) :
    session.Accounts (session.executeLine line).session (session.executeLine line).events := by
  have executing : session.Accounts session [.executing line] := .silent rfl
  have performed : session.Accounts (session.perform (tokenize line)).session
      (.executing line :: (session.perform (tokenize line)).events ++
        [.flushed .output session.out.flushes]) :=
    (executing.append (session.accounts_perform _)).append (.silent rfl)
  have cases := session.executeLine_cases line
  generalize session.executeLine line = done at cases
  cases cases with
  | blank => exact executing
  | succeeded => exact performed
  | failed => exact performed.append (accounts_report _ _)

/-- A prompt is one write to the output stream, also where it does not arrive. -/
theorem accounts_showPrompt (session : Session) (shownBySource : Bool) :
    session.Accounts (session.showPrompt shownBySource).session
      (session.showPrompt shownBySource).events := by
  have prompted : ∀ bytes, session.Accounts { session with out := session.out.written bytes }
      [.prompted (session.out.write bytes)] := by
    intro bytes
    exact .of_write .output bytes (fun _ => rfl) (fun _ => rfl)
      (fun stream => by cases stream <;> rfl)
  unfold showPrompt
  dsimp only
  split
  · exact .refl session
  · split
    · exact prompted _
    · exact (prompted _).append (.silent rfl)

/-- Handling an answer is accounted for, whatever it is. -/
theorem accounts_answer (session : Session) (reading : Reading) :
    session.Accounts (session.answer reading).session (session.answer reading).events := by
  cases reading with
  | line text =>
      rw [(session.answer_line text).1, (session.answer_line text).2]
      exact session.accounts_executeLine text
  | overflow => exact session.accounts_report _
  | interrupted => exact .refl session
  | finished => exact .refl session
  | failed => exact .refl session

/-- Whatever a session has been through, its events account for its streams. -/
theorem History.accounts {handled : List Handled}
    (history : first.History handled session events) : first.Accounts session events := by
  induction history with
  | start => exact .refl first
  | sourced line before ih => exact ih.append (accounts_executeLine _ line)
  | prompted shownBySource before ih => exact ih.append (accounts_showPrompt _ shownBySource)
  | @answered handled session events reading before ih =>
      have read : session.Accounts session [.read session.settings.shownPrompt reading] :=
        .silent rfl
      exact ih.append (read.append (accounts_answer _ reading))

theorem accounts_turn (session : Session) (shownBySource : Bool) (reading : Reading) :
    session.Accounts (session.turn shownBySource reading).session
      (session.turn shownBySource reading).events := by
  have begins : session.History [] session [] := .start
  obtain ⟨taken, history, _⟩ := begins.turn shownBySource reading
  exact history.accounts

/-- The streams of a session with startup lines are accounted for. -/
theorem accounts_sourceLines (session : Session) (lines : List String) :
    session.Accounts (session.sourceLines lines).session (session.sourceLines lines).events := by
  have begins : session.History [] session [] := .start
  obtain ⟨taken, history, _⟩ := begins.sourceLines lines
  exact history.accounts

/-- The streams of a run are accounted for, over any source. -/
theorem accounts_run {σ : Type} [LineSource σ] (session : Session) (source : σ) :
    session.Accounts (session.run source).session (session.run source).events := by
  have begins : session.History [] session [] := .start
  obtain ⟨taken, history, _⟩ := begins.run source
  exact history.accounts

/-- So are those of startup lines and the run after them. -/
theorem accounts_play {σ : Type} [LineSource σ] (session : Session) (lines : List String)
    (source : σ) :
    session.Accounts (session.play lines source).session (session.play lines source).events := by
  have sourced := session.accounts_sourceLines lines
  unfold play
  dsimp only
  cases (session.sourceLines lines).result with
  | exit => exact sourced
  | proceed => exact sourced.append (accounts_run _ source)

end Session
end CommandShell
