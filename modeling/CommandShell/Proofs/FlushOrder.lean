/-
Module: CommandShell.Proofs.FlushOrder
Purpose: What the shell writes to its output stream is flushed before a program or a diagnostic can
  write anything.
Trusted boundary: none
Main exports:
  Event.awaitsOutput, pendingAfter, InOrder, inOrder_append, Step.Ordered, Session.inOrder_run,
  Session.inOrder_play, Buffered, Buffered.after_holds, Session.output_before_launch
-/
import CommandShell.Proofs.Dispatch

namespace CommandShell

/-!
A stream that keeps bytes back for a while is flushed now and then.  To say when this comes in time,
the events are read from left to right with one bit of memory: whether something has been written to
the output stream since the last attempt to flush it.  A program may start, and a diagnostic may be
written, only when it has not.
-/

/-- The shell writes to its output stream. -/
def Event.writesOutput : Event → Bool
  | .prompted _ => true
  | .printed _ => true
  | _ => false

/-- The event is the start of a program, an attempt at one, something a program writes, or a
diagnostic. -/
def Event.awaitsOutput : Event → Bool
  | .attempted _ => true
  | .started .. => true
  | .programWrote .. => true
  | .reported .. => true
  | _ => false

/-- Whether the event leaves something written that no attempt has been made to flush. -/
def Event.leavesPending (pending : Bool) : Event → Bool
  | .prompted _ => true
  | .printed _ => true
  | .flushed .output _ => false
  | _ => pending

def pendingAfter (pending : Bool) (events : List Event) : Bool :=
  events.foldl Event.leavesPending pending

/-- Nothing is pending when something happens that has to wait for the output. -/
def InOrder : Bool → List Event → Prop
  | _, [] => True
  | pending, event :: rest =>
      (event.awaitsOutput = true → pending = false) ∧ InOrder (event.leavesPending pending) rest

section

variable {pending : Bool} {event : Event} {events : List Event}

@[simp] theorem pendingAfter_nil : pendingAfter pending [] = pending := rfl

@[simp] theorem pendingAfter_cons :
    pendingAfter pending (event :: events) = pendingAfter (event.leavesPending pending) events :=
  rfl

@[simp] theorem pendingAfter_append (one other : List Event) :
    pendingAfter pending (one ++ other) = pendingAfter (pendingAfter pending one) other :=
  List.foldl_append

@[simp] theorem inOrder_nil : InOrder pending [] := trivial

@[simp] theorem inOrder_cons :
    InOrder pending (event :: events) ↔
      (event.awaitsOutput = true → pending = false) ∧
        InOrder (event.leavesPending pending) events := Iff.rfl

/-- What comes later is in order from what the earlier part leaves pending. -/
@[simp] theorem inOrder_append {one other : List Event} :
    InOrder pending (one ++ other) ↔
      InOrder pending one ∧ InOrder (pendingAfter pending one) other := by
  induction one generalizing pending with
  | nil => simp
  | cons event one ih => simp [ih, and_assoc]

/-- Events that wait for nothing are in order. -/
theorem inOrder_of_awaits (free : ∀ event ∈ events, event.awaitsOutput = false) :
    InOrder pending events := by
  induction events generalizing pending with
  | nil => simp
  | cons event events ih =>
      rw [List.forall_mem_cons] at free
      simp [free.1, ih free.2]

/-- Events that write nothing are in order if nothing is pending before them. -/
theorem inOrder_of_writes (silent : ∀ event ∈ events, event.writesOutput = false) :
    InOrder false events := by
  induction events with
  | nil => simp
  | cons event events ih =>
      rw [List.forall_mem_cons] at silent
      have stays : event.leavesPending false = false := by
        cases event with
        | prompted => simp [Event.writesOutput] at silent
        | printed => simp [Event.writesOutput] at silent
        | flushed stream => cases stream <;> rfl
        | _ => rfl
      simp [stays, ih silent.2]

/-- What is pending until it is not has been flushed in between. -/
theorem flushed_mem_of_pendingAfter (flushed : pendingAfter true events = false) :
    ∃ succeeded, .flushed .output succeeded ∈ events := by
  induction events with
  | nil => simp at flushed
  | cons event events ih =>
      by_cases here : ∃ succeeded, event = .flushed .output succeeded
      · obtain ⟨succeeded, rfl⟩ := here
        exists succeeded
        simp
      · have stays : event.leavesPending true = true := by
          cases event with
          | flushed stream =>
              cases stream with
              | output => simp at here
              | error => rfl
          | _ => rfl
        rw [pendingAfter_cons, stays] at flushed
        obtain ⟨succeeded, member⟩ := ih flushed
        exists succeeded
        simp [member]

/-- In events that are in order, a write and what has to wait for it have a flush between them. -/
theorem InOrder.flushed_between (ordered : InOrder false events)
    {before after earlier later : List Event} {write : Event}
    (here : events = before ++ event :: after) (awaits : event.awaitsOutput = true)
    (there : before = earlier ++ write :: later) (writes : write.writesOutput = true) :
    ∃ succeeded, .flushed .output succeeded ∈ later := by
  have leaves : ∀ pending, write.leavesPending pending = true := by
    intro pending
    cases write with
    | prompted => rfl
    | printed => rfl
    | _ => simp [Event.writesOutput] at writes
  have none : pendingAfter false before = false := by
    rw [here, inOrder_append, inOrder_cons] at ordered
    exact ordered.2.1 awaits
  apply flushed_mem_of_pendingAfter
  simpa [there, leaves] using none

end

/-- Events that are in order and leave nothing pending. -/
structure Settled (events : List Event) : Prop where
  inOrder : InOrder false events
  flushed : pendingAfter false events = false

/-- What is settled can be followed by anything that is. -/
theorem Settled.append {one other : List Event} (first : Settled one) (second : Settled other) :
    Settled (one ++ other) where
  inOrder := by simp [first.inOrder, first.flushed, second.inOrder]
  flushed := by simp [first.flushed, second.flushed]

namespace Session

/-- A command either starts no program or writes nothing. -/
theorem inOrder_perform (session : Session) (tokens : List String) :
    InOrder false (session.perform tokens).events := by
  cases tokens with
  | nil => simp [perform, World.perform]
  | cons name arguments =>
      cases called : Builtin.ofName? name with
      | some builtin =>
          apply inOrder_of_awaits
          intro event member
          rcases of_mem_perform_builtin called member with rfl | ⟨place, rfl⟩ | ⟨write, rfl⟩
          · rfl
          · rfl
          · rfl
      | none =>
          rw [perform_external called]
          apply inOrder_of_writes
          intro event member
          have other := World.ofSession_runProgram _ _ _ _ event member
          cases event with
          | prompted => cases other
          | printed => cases other
          | _ => rfl

/-- A report is written when nothing is pending, and is nothing that has to be flushed. -/
theorem settled_report (session : Session) (cause : ShellError) :
    Settled (session.report cause).events := by
  constructor <;> simp [report, Event.leavesPending]

/-- The output stream is flushed after a command and before the report of its failure. -/
theorem settled_executeLine (session : Session) (line : String) :
    Settled (session.executeLine line).events := by
  have performed : Settled (.executing line :: (session.perform (tokenize line)).events ++
      [.flushed .output session.out.flushes]) := by
    constructor
    · simp [Event.awaitsOutput, Event.leavesPending, session.inOrder_perform]
    · simp [Event.leavesPending]
  have cases := session.executeLine_cases line
  generalize session.executeLine line = done at cases
  cases cases with
  | blank => constructor <;> simp [Event.awaitsOutput, Event.leavesPending]
  | succeeded => exact performed
  | failed => exact performed.append (settled_report _ _)

/-- Whatever the answer, nothing is pending once it has been handled. -/
theorem settled_answer (session : Session) (reading : Reading) :
    Settled (session.answer reading).events := by
  cases reading with
  | line text =>
      rw [(session.answer_line text).2]
      exact session.settled_executeLine text
  | overflow => exact session.settled_report _
  | interrupted => constructor <;> simp [answer]
  | finished => constructor <;> simp [answer]
  | failed cause => constructor <;> simp [answer]

/-- Nothing is pending after startup lines, even if one of them leaves. -/
theorem settled_sourceLines (session : Session) (lines : List String) :
    Settled (session.sourceLines lines).events := by
  induction lines generalizing session with
  | nil => constructor <;> simp [sourceLines]
  | cons line rest ih =>
      have executed := session.settled_executeLine line
      rw [sourceLines]
      dsimp only
      split
      · exact executed
      · exact executed.append (ih _)

/-- A prompt waits for nothing.  It is flushed, unless it does not arrive, which ends the run. -/
theorem settled_showPrompt {session : Session} {shownBySource : Bool}
    (shown : (session.showPrompt shownBySource).result = .ok ()) :
    Settled (session.showPrompt shownBySource).events := by
  unfold showPrompt at shown ⊢
  dsimp only at shown ⊢
  split
  · constructor <;> simp
  · split
    · simp_all
    · constructor <;> simp [Event.awaitsOutput, Event.leavesPending]

/-- Nothing in a prompt has to wait for the output. -/
theorem inOrder_showPrompt (session : Session) (shownBySource : Bool) :
    InOrder false (session.showPrompt shownBySource).events := by
  apply inOrder_of_awaits
  intro event member
  rcases of_mem_showPrompt member with ⟨write, rfl⟩ | ⟨succeeded, rfl⟩
  · rfl
  · rfl

/-- A turn is in order, and settled if there is another one. -/
theorem inOrder_turn (session : Session) (shownBySource : Bool) (reading : Reading) :
    InOrder false (session.turn shownBySource reading).events ∧
      ((session.turn shownBySource reading).result = none →
        Settled (session.turn shownBySource reading).events) := by
  cases shown : (session.showPrompt shownBySource).result with
  | error error =>
      unfold turn
      dsimp only
      simp [shown, inOrder_showPrompt]
  | ok value =>
      have answered := (session.showPrompt shownBySource).session.settled_answer reading
      have read : Settled [.read session.settings.shownPrompt reading] := by
        constructor <;> simp [Event.awaitsOutput, Event.leavesPending]
      have turned : Settled (session.turn shownBySource reading).events := by
        rw [turn_of_prompted shown]
        exact (settled_showPrompt shown).append (read.append answered)
      exact ⟨turned.inOrder, fun _ => turned⟩

/-- A run is in order: each of its turns begins with nothing pending. -/
theorem inOrder_run {σ : Type} [LineSource σ] (session : Session) (source : σ) :
    InOrder false (session.run source).events := by
  apply run_induction (motive := fun session source step => InOrder false step.events)
  · intro session source result turned ended
    exact (session.inOrder_turn _ _).1
  · intro session source later turned more ih
    -- A prompt that is not flushed ends the run, so nothing is pending when the next turn begins.
    have once := (session.inOrder_turn _ _).2 more
    rw [inOrder_append, once.flushed]
    exact ⟨once.inOrder, ih⟩

/-- So are startup lines and the run after them. -/
theorem inOrder_play {σ : Type} [LineSource σ] (session : Session) (lines : List String)
    (source : σ) : InOrder false (session.play lines source).events := by
  have sourced := session.settled_sourceLines lines
  unfold play
  dsimp only
  split
  · exact sourced.inOrder
  · rw [inOrder_append, sourced.flushed]
    exact ⟨sourced.inOrder, inOrder_run _ source⟩

end Session

/-! ### Streams that keep bytes back -/

/-- A stream behind which some bytes are kept for a while: those that have gone through to where the
stream leads, the bytes of programs among them, and those that are kept. -/
structure Buffered where
  through : Bytes := []
  kept : Bytes := []

namespace Buffered

/-- The shell writes.  How many bytes go through then, of those that were kept and those that are
written, is for `passes` to say. -/
def take (passes : Bytes → Bytes → Nat) (buffered : Buffered) (bytes : Bytes) : Buffered :=
  let all := buffered.kept ++ bytes
  let count := passes buffered.kept bytes
  ⟨buffered.through ++ all.take count, all.drop count⟩

/-- After an event.  A flush lets everything through; what a program writes goes past the bytes that
are kept. -/
def next (passes : Bytes → Bytes → Nat) (buffered : Buffered) : Event → Buffered
  | .prompted write => buffered.take passes write.delivered
  | .printed write => buffered.take passes write.delivered
  | .flushed .output true => ⟨buffered.through ++ buffered.kept, []⟩
  | .programWrote .output bytes => { buffered with through := buffered.through ++ bytes }
  | _ => buffered

def after (passes : Bytes → Bytes → Nat) (events : List Event) : Buffered :=
  events.foldl (next passes) {}

/-- All bytes have gone through or are kept, in their order, and none are kept if nothing is
pending. -/
structure Holds (buffered : Buffered) (pending : Bool) (bytes : Bytes) : Prop where
  whole : buffered.through ++ buffered.kept = bytes
  flushed : pending = false → buffered.kept = []

section

variable (passes : Bytes → Bytes → Nat) {buffered : Buffered} {pending : Bool} {bytes : Bytes}

/-- A write is kept or goes through, and nothing of what came before is lost or overtaken. -/
theorem Holds.take (holds : buffered.Holds pending bytes) (more : Bytes) :
    (buffered.take passes more).Holds true (bytes ++ more) where
  whole := by simp [Buffered.take, ← holds.whole]
  flushed := nofun

/-- One event keeps the stream in order, if its flush succeeds and it waits for what it has to. -/
theorem Holds.next (holds : buffered.Holds pending bytes) {event : Event}
    (succeeds : event ≠ .flushed .output false)
    (ordered : event.awaitsOutput = true → pending = false) :
    (buffered.next passes event).Holds (event.leavesPending pending)
      (bytes ++ (event.shellBytes .output ++ event.programBytes .output)) := by
  have silent : buffered.Holds pending (bytes ++ ([] ++ [])) := by simpa using holds
  cases event with
  | prompted write =>
      simpa [Buffered.next, Event.leavesPending, Event.shellBytes, Event.programBytes] using
        holds.take passes write.delivered
  | printed write =>
      simpa [Buffered.next, Event.leavesPending, Event.shellBytes, Event.programBytes] using
        holds.take passes write.delivered
  | flushed stream succeeded =>
      cases stream with
      | error => exact silent
      | output =>
          cases succeeded with
          | false => exact absurd rfl succeeds
          | true =>
              constructor
              · simp [Buffered.next, Event.shellBytes, Event.programBytes, holds.whole]
              · simp [Buffered.next]
  | programWrote stream more =>
      have none := holds.flushed (ordered rfl)
      cases stream with
      | error => exact silent
      | output =>
          constructor
          · simp [Buffered.next, Event.shellBytes, Event.programBytes, none, ← holds.whole]
          · simp [Buffered.next, none]
  | _ => exact silent

/-- So do any number of events, one after the other. -/
theorem Holds.foldl {events : List Event} (holds : buffered.Holds pending bytes)
    (succeed : .flushed .output false ∉ events) (ordered : InOrder pending events) :
    (events.foldl (Buffered.next passes) buffered).Holds (pendingAfter pending events)
      (bytes ++ arrived .output events) := by
  induction events generalizing buffered pending bytes with
  | nil => simpa [arrived] using holds
  | cons event events ih =>
      rw [List.mem_cons, not_or] at succeed
      rw [inOrder_cons] at ordered
      have once := holds.next passes (Ne.symm succeed.1) ordered.1
      simpa [arrived] using ih once succeed.2 ordered.2

/-- If flushes succeed and nothing goes ahead of them, no more than what is pending is kept. -/
theorem after_holds {events : List Event}
    (succeed : .flushed .output false ∉ events) (ordered : InOrder false events) :
    (after passes events).Holds (pendingAfter false events) (arrived .output events) := by
  have nothing : ({} : Buffered).Holds false [] := by constructor <;> simp
  simpa [after] using nothing.foldl passes succeed ordered

end

end Buffered

namespace Session

/-- A flush in a line succeeds if and only if the output stream can be flushed. -/
theorem flushed_executeLine {session : Session} {line : String} {succeeded : Bool}
    (member : .flushed .output succeeded ∈ (session.executeLine line).events) :
    succeeded = session.out.flushes := by
  have performed : .flushed .output succeeded ∉ (session.perform (tokenize line)).events := by
    intro member
    rcases session.ofSession_perform _ _ member with other | ⟨write, other⟩
    · simp [Event.ofSession] at other
    · simp at other
  have cases := session.executeLine_cases line
  generalize session.executeLine line = done at cases member
  cases cases with
  | blank => simp at member
  | succeeded => simpa [performed] using member
  | failed => simpa [performed, report] using member

/-- So does the flush of a prompt. -/
theorem flushed_showPrompt {session : Session} {shownBySource succeeded : Bool}
    (member : .flushed .output succeeded ∈ (session.showPrompt shownBySource).events) :
    succeeded = session.out.flushes := by
  unfold showPrompt at member
  dsimp only at member
  split at member
  · simp at member
  · split at member
    · simp at member
    · simpa using member

/-- Flushes of the output stream succeed or fail as they do from the beginning. -/
theorem History.flushed_eq {first session : Session} {handled : List Handled}
    {events : List Event} (history : first.History handled session events) {succeeded : Bool}
    (member : .flushed .output succeeded ∈ events) : succeeded = first.out.flushes := by
  induction history with
  | start => simp at member
  | sourced line before ih =>
      rcases List.mem_append.mp member with member | here
      · exact ih member
      · rw [flushed_executeLine here, before.accounts.flushes]
  | prompted shownBySource before ih =>
      rcases List.mem_append.mp member with member | here
      · exact ih member
      · rw [flushed_showPrompt here, before.accounts.flushes]
  | answered reading before ih =>
      rcases List.mem_append.mp member with member | here
      · exact ih member
      · cases reading with
        | line text =>
            rw [List.mem_cons, (answer_line _ text).2] at here
            rw [flushed_executeLine (here.resolve_left nofun), before.accounts.flushes]
        | overflow => simp [answer, report] at here
        | interrupted => simp [answer] at here
        | finished => simp [answer] at here
        | failed cause => simp [answer] at here

/-- Whether the output stream can be flushed does not change in a session. -/
theorem flushed_play {σ : Type} [LineSource σ] {session : Session} {lines : List String}
    {source : σ} {succeeded : Bool}
    (member : .flushed .output succeeded ∈ (session.play lines source).events) :
    succeeded = session.out.flushes := by
  have begins : session.History [] session [] := .start
  obtain ⟨handled, sourced, _⟩ := begins.sourceLines lines
  obtain ⟨more, ran, _⟩ := sourced.run source
  unfold play at member
  dsimp only at member
  split at member
  · exact sourced.flushed_eq member
  · exact ran.flushed_eq member

/-- Output goes out in the order in which a session brings it about, over any startup lines and any
source.  Between what the shell writes to its output stream and a program or a diagnostic after it,
there is an attempt to flush the stream.  So if flushes succeed and the stream keeps bytes back in
whatever way, all that the shell and earlier programs have written has gone through, in its order,
whenever a program is started or writes and whenever a failure is told. -/
theorem output_before_launch {σ : Type} [LineSource σ] (session : Session) (lines : List String)
    (source : σ) :
    let events := (session.play lines source).events
    ∀ before event after, events = before ++ event :: after → event.awaitsOutput = true →
      (∀ earlier write later, before = earlier ++ write :: later → write.writesOutput = true →
        ∃ succeeded, .flushed .output succeeded ∈ later) ∧
      (session.out.flushes = true → ∀ passes,
        Buffered.after passes before = ⟨arrived .output before, []⟩) := by
  intro events before event after here awaits
  have ordered : InOrder false events := session.inOrder_play lines source
  constructor
  · intro earlier write later there writes
    exact ordered.flushed_between here awaits there writes
  · intro flushes passes
    rw [here, inOrder_append, inOrder_cons] at ordered
    have succeed : .flushed .output false ∉ before := by
      intro member
      have failed : .flushed .output false ∈ events := by simp [here, member]
      have same := flushed_play failed
      simp [flushes] at same
    have holds := Buffered.after_holds passes succeed ordered.1
    have none := holds.flushed (ordered.2.1 awaits)
    have whole := holds.whole
    generalize Buffered.after passes before = buffered at none whole
    obtain ⟨through, kept⟩ := buffered
    simp_all

/-- The working directory is shown before a program is started, and a directory that cannot be
entered before the failure is told.  No byte goes through but by a flush. -/
theorem output_before_launch_and_report :
    let events := (withOneProgram.play ["pwd", "run", "cd x"] (Reader.mk 128 {})).events
    let attempted := Event.attempted ⟨bytesOf "/bin/run", [], none, none⟩
    let reported := Event.reported (.command (.changeDirectory "x" (.system .missing)))
      ⟨diagnostic, diagnostic⟩
    events = events.take 7 ++ attempted :: events.drop 8 ∧
      Buffered.after (fun _ _ => 0) (events.take 7) = ⟨bytesOf "/\n", []⟩ ∧
      events = events.take 15 ++ reported :: events.drop 16 ∧
      events.take 15 = events.take 13 ++ .printed ⟨bytesOf "Error: x\n", bytesOf "Error: x\n"⟩ ::
        (events.drop 14).take 1 ∧
      ∃ succeeded, .flushed .output succeeded ∈ (events.drop 14).take 1 := by
  intro events attempted reported
  have launch : events = events.take 7 ++ attempted :: events.drop 8 := by decide +kernel
  have report : events = events.take 15 ++ reported :: events.drop 16 := by decide +kernel
  have write : events.take 15 = events.take 13 ++
      .printed ⟨bytesOf "Error: x\n", bytesOf "Error: x\n"⟩ :: (events.drop 14).take 1 := by
    decide +kernel
  have ordered := output_before_launch withOneProgram ["pwd", "run", "cd x"] (Reader.mk 128 {})
  have shown : arrived .output (events.take 7) = bytesOf "/\n" := by decide +kernel
  refine ⟨launch, ?_, report, write, ?_⟩
  · rw [(ordered _ _ _ launch rfl).2 rfl, shown]
  · exact (ordered _ _ _ report rfl).1 _ _ _ write rfl

end Session
end CommandShell
