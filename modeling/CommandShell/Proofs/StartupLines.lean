/-
Module: CommandShell.Proofs.StartupLines
Purpose: Lines that are known beforehand do what the same lines do as input.
Trusted boundary: none
Main exports:
  unread, Step.Matches, Step.Matches.views, lineItems, LineStream.next_lineItems,
  CommandLine.runSession_cons, CommandLine.runSession_matches_run
-/
import CommandShell.CommandLine
import CommandShell.Proofs.CommandCases
import CommandShell.Proofs.LineStream

namespace CommandShell

/-- The events of a session other than its reads. -/
def unread (events : List Event) : List Event :=
  events.filter fun event => !event.isRead

@[simp] theorem unread_append (one other : List Event) :
    unread (one ++ other) = unread one ++ unread other :=
  List.filter_append ..

/-- A view to which the events that are left out bring nothing does not miss them. -/
theorem flatMap_filter_of_blind {view : Event → Bytes} {keeps : Event → Bool}
    (events : List Event) (blind : ∀ event : Event, keeps event = false → view event = []) :
    (events.filter keeps).flatMap view = events.flatMap view := by
  induction events with
  | nil => rfl
  | cons event events ih =>
      cases kept : keeps event with
      | true => simp [kept, ih]
      | false => simp [kept, ih, blind event kept]

/-- What arrives does not tell events apart that are the same but for some that bring nothing. -/
theorem views_of_filter_eq {keeps : Event → Bool} {one other : List Event}
    (blind : ∀ event : Event, keeps event = false → ∀ stream,
      event.shellBytes stream = [] ∧ event.programBytes stream = [])
    (same : one.filter keeps = other.filter keeps) (stream : Stream) :
    shellWrote stream one = shellWrote stream other ∧
      programsWrote stream one = programsWrote stream other ∧
      arrived stream one = arrived stream other := by
  have seen : ∀ view : Event → Bytes, (∀ event, keeps event = false → view event = []) →
      one.flatMap view = other.flatMap view := by
    intro view blind
    rw [← flatMap_filter_of_blind one blind, same, flatMap_filter_of_blind other blind]
  refine ⟨seen _ ?_, seen _ ?_, seen _ ?_⟩
  · intro event left
    exact (blind event left stream).1
  · intro event left
    exact (blind event left stream).2
  · intro event left
    simp [blind event left stream]

/-- Two parts of a session that differ at most in what was read: they end in the same way, leave
the same session, and the same happens in them. -/
structure Step.Matches {α : Type} (one other : Step α) : Prop where
  result : one.result = other.result
  session : one.session = other.session
  events : unread one.events = unread other.events

namespace Step.Matches

variable {α : Type} {one other : Step α}

theorem refl (step : Step α) : step.Matches step := ⟨rfl, rfl, rfl⟩

/-- What happens before is the same if it is the same but for reads. -/
theorem after (later : one.Matches other) {before before' : List Event}
    (earlier : unread before = unread before') :
    Step.Matches { one with events := before ++ one.events }
      { other with events := before' ++ other.events } where
  result := later.result
  session := later.session
  events := by rw [unread_append, unread_append, earlier, later.events]

/-- Nothing that arrives on a stream tells the two apart, be it from the shell or from programs. -/
theorem views (same : one.Matches other) (stream : Stream) :
    shellWrote stream one.events = shellWrote stream other.events ∧
      programsWrote stream one.events = programsWrote stream other.events ∧
      arrived stream one.events = arrived stream other.events := by
  apply views_of_filter_eq _ same.events stream
  intro event read stream
  cases event with
  | read => simp [Event.shellBytes, Event.programBytes]
  | _ => simp [Event.isRead] at read

end Step.Matches

/-- Only a line break has its byte in its UTF-8 form. -/
theorem eq_of_newline_mem_encodeChar {char : Char} (member : newline ∈ Text.encodeChar char) :
    char = '\n' := by
  have bound : char.toNat < 0x110000 := by
    have scalar := char.valid
    simp only [UInt32.isValidChar, Nat.isValidChar] at scalar
    exact scalar.elim (fun low => Nat.lt_trans low (by decide)) And.right
  have code : char.toNat = 10 := by
    simp only [Text.encodeChar] at member
    split at member
    case isTrue => simp [newline, ← UInt8.toNat_inj] at member; omega
    case isFalse =>
    split at member
    case isTrue => simp [newline, ← UInt8.toNat_inj] at member; omega
    case isFalse =>
    split at member
    case isTrue => simp [newline, ← UInt8.toNat_inj] at member; omega
    case isFalse => simp [newline, ← UInt8.toNat_inj] at member; omega
  calc char = Char.ofNat char.toNat := (Char.ofNat_toNat char).symm
    _ = '\n' := by rw [code]

/-- A text without a newline has none among its bytes. -/
theorem ne_newline_of_mem_bytesOf {line : String} (single : '\n' ∉ line.toList) :
    ∀ byte ∈ bytesOf line, byte ≠ newline := by
  rintro byte member rfl
  obtain ⟨char, among, inside⟩ := List.mem_flatMap.mp member
  rw [eq_of_newline_mem_encodeChar inside] at among
  exact single among

/-- A line as input: its bytes, and a newline to end it. -/
def lineItems (line : String) : List Item :=
  (bytesOf line ++ [newline]).map .byte

/-- A line that is short enough is read as the line it is. -/
theorem LineStream.next_lineItems {limit : Nat} {line : String} (single : '\n' ∉ line.toList)
    (short : (bytesOf line).length < limit) (items : List Item) :
    LineStream.next ⟨limit, lineItems line ++ items⟩ = (.line line, ⟨limit, items⟩) := by
  have plain : newline ∉ bytesOf line := by
    intro member
    exact ne_newline_of_mem_bytesOf single newline member rfl
  calc LineStream.next ⟨limit, lineItems line ++ items⟩
      = (if (bytesOf line).length < limit then .line (shown (bytesOf line)) else .overflow,
          ⟨limit, items⟩) := LineStream.next_terminated plain items
    _ = (.line line, ⟨limit, items⟩) := by rw [if_pos short, shown_bytesOf]

namespace Session

/-- In a quiet session a turn is the answer to what was read. -/
theorem turn_of_quiet {session : Session} (quiet : session.settings.shownPrompt = "")
    (shownBySource : Bool) (reading : Reading) :
    session.turn shownBySource reading =
      let answered := session.answer reading
      { answered with events := .read "" reading :: answered.events } := by
  have silent : session.showPrompt shownBySource = ⟨.ok (), session, []⟩ := by
    rw [showPrompt, quiet]
    rfl
  rw [turn, silent, quiet]
  rfl

/-- A line at the start of the input is executed, and then the rest of the input is run. -/
theorem run_lineItems {session : Session} (quiet : session.settings.shownPrompt = "")
    {limit : Nat} {line : String} (single : '\n' ∉ line.toList)
    (short : (bytesOf line).length < limit) (items : List Item) :
    session.run (LineStream.mk limit (lineItems line ++ items)) =
      let executed := session.executeLine line
      let events := .read "" (.line line) :: executed.events
      match executed.result with
      | .exit => ⟨.ok (), executed.session, events⟩
      | .proceed =>
          let later := executed.session.run (LineStream.mk limit items)
          { later with events := events ++ later.events } := by
  have next : LineSource.next (LineStream.mk limit (lineItems line ++ items)) =
      (.line line, LineStream.mk limit items) := LineStream.next_lineItems single short items
  rw [run_eq_turn, next, turn_of_quiet quiet, answer]
  dsimp only
  cases (session.executeLine line).result with
  | exit => rfl
  | proceed => rfl

end Session

namespace CommandLine

/-- Startup lines are executed one by one, and the first that leaves the session is the last. -/
theorem runSession_cons (session : Session) (line : String) (lines : List String)
    (input : Supply) :
    runSession session (some (line :: lines)) input =
      let executed := session.executeLine line
      match executed.result with
      | .exit => { executed with result := .ok () }
      | .proceed =>
          let later := runSession executed.session (some lines) input
          { later with events := executed.events ++ later.events } := by
  rw [runSession, Option.getD_some, Session.sourceLines]
  dsimp only
  cases left : (session.executeLine line).result with
  | exit => dsimp only; rw [left]
  | proceed =>
      dsimp only
      rw [runSession, Option.getD_some, Session.settings_executeLine]
      dsimp only
      cases ((session.executeLine line).session.sourceLines lines).result with
      | exit => rfl
      | proceed => dsimp only; rw [List.append_assoc]

/-- Startup lines and the input after them do what the input with the lines before it does. -/
theorem runSession_matches_lineStream {limit : Nat} {rest : Supply} {lines : List String}
    (positive : 1 ≤ limit)
    (fits : ∀ line ∈ lines, '\n' ∉ line.toList ∧ (bytesOf line).length < limit)
    (session : Session) (quiet : session.settings.shownPrompt = "")
    (bound : session.settings.lineLimit = limit) :
    (runSession session (some lines) rest).Matches
      (session.run (LineStream.mk limit (lines.flatMap lineItems ++ rest.stream))) := by
  induction lines generalizing session with
  | nil =>
      have same : session.run (Reader.mk limit rest) =
          session.run (LineStream.mk limit rest.stream) :=
        Reader.lineStream_simulation.run_eq (fun _ => rfl) ⟨positive, rfl⟩ session
      change Step.Matches { session.run (Reader.mk session.settings.lineLimit rest) with
        events := [] ++ (session.run (Reader.mk session.settings.lineLimit rest)).events } _
      rw [bound, same]
      exact Step.Matches.refl _
  | cons line lines ih =>
      obtain ⟨single, short⟩ := fits line List.mem_cons_self
      have settings := session.settings_executeLine line
      rw [runSession_cons, List.flatMap_cons, List.append_assoc,
        Session.run_lineItems quiet single short]
      dsimp only
      cases (session.executeLine line).result with
      | exit => exact ⟨rfl, rfl, rfl⟩
      | proceed =>
          have later := ih (fun other member => fits other (List.mem_cons_of_mem line member))
            (session.executeLine line).session (by rw [settings]; exact quiet)
            (by rw [settings]; exact bound)
          exact later.after rfl

/-- Startup lines and piped input are one language.  Whether lines are executed beforehand and then
the rest of the input is run, or all of it is run as input, the session ends in the same way and in
the same state, and the same arrives on every stream. -/
theorem runSession_matches_run (session : Session) (lines : List String) (rest whole : Supply)
    (quiet : session.settings.shownPrompt = "")
    (fits : ∀ line ∈ lines,
      '\n' ∉ line.toList ∧ (bytesOf line).length < session.settings.lineLimit)
    (joined : whole.stream = lines.flatMap lineItems ++ rest.stream) :
    let sourced := runSession session (some lines) rest
    let piped := session.run (Reader.mk session.settings.lineLimit whole)
    sourced.Matches piped ∧ ∀ stream,
      shellWrote stream sourced.events = shellWrote stream piped.events ∧
      programsWrote stream sourced.events = programsWrote stream piped.events ∧
      arrived stream sourced.events = arrived stream piped.events := by
  intro sourced piped
  have same : sourced.Matches piped := by
    cases lines with
    -- Without a line nothing says that the limit is positive, so the reference does not apply.
    | nil =>
        have twins : session.run (Reader.mk session.settings.lineLimit whole) =
            session.run (Reader.mk session.settings.lineLimit rest) := by
          apply Reader.run_eq_of_stream_eq
          · rfl
          · exact joined
        change sourced.Matches (session.run (Reader.mk session.settings.lineLimit whole))
        rw [twins]
        exact Step.Matches.refl _
    | cons line lines =>
        have positive : 1 ≤ session.settings.lineLimit :=
          Nat.lt_of_le_of_lt (Nat.zero_le _) (fits line List.mem_cons_self).2
        have flat : piped = session.run (LineStream.mk session.settings.lineLimit whole.stream) :=
          Reader.lineStream_simulation.run_eq (fun _ => rfl) ⟨positive, rfl⟩ session
        rw [flat, joined]
        exact runSession_matches_lineStream positive fits session quiet rfl
  exact ⟨same, same.views⟩

/-- A line that fails and one that prints, once as startup lines and once as input that is cut
inside of a line and interrupted, with a line after them that leaves the session. -/
theorem runSession_matches_run_cut :
    let session : Session := { settings := { quiet := true } }
    let lines := ["cd nowhere", "pwd"]
    let rest : Supply := ⟨bytesOf "exit\n", []⟩
    let whole : Supply :=
      ⟨bytesOf "cd no", [.chunk (bytesOf "where\npwd\ne"), .interrupted, .chunk (bytesOf "xit\n")]⟩
    session.settings.shownPrompt = "" ∧
      (∀ line ∈ lines, '\n' ∉ line.toList ∧ (bytesOf line).length < session.settings.lineLimit) ∧
      whole.stream = lines.flatMap lineItems ++ rest.stream ∧
      shellWrote .output (session.sourceLines lines).events = bytesOf "Error: nowhere\n/\n" ∧
      (runSession session (some lines) rest).Matches
        (session.run (Reader.mk session.settings.lineLimit whole)) := by
  refine ⟨by decide, by decide, by decide, by decide, ?_⟩
  exact (runSession_matches_run _ _ _ _ (by decide) (by decide) (by decide)).1

end CommandLine
end CommandShell
