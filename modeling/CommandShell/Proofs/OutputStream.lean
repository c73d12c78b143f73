/-
Module: CommandShell.Proofs.OutputStream
Purpose: What becomes of a session whose output stream takes only so many bytes.
Trusted boundary: none
Main exports:
  Session.FallsShort, Session.fallsShort_showPrompt, Session.fallsShort_play, Step.LosesOutput,
  Session.FallsShort.output, Session.output_limited
-/
import CommandShell.Proofs.ExecutedLines
import CommandShell.Proofs.LostOutput
import CommandShell.Proofs.Prompts
import CommandShell.Source.Scripted

namespace CommandShell

/-!
A prompt that is cut short ends the session, and what is cut short otherwise changes little.  So a
session with little room for its output goes along with one that has all the room, to the end or up
to a prompt.
-/

namespace Session

/-- No command and no line writes a prompt. -/
theorem not_prompted_executeLine (session : Session) (line : String) (write : Write) :
    .prompted write ∉ (session.executeLine line).events := by
  have performed : .prompted write ∉ (session.perform (tokenize line)).events := by
    intro member
    rcases session.ofSession_perform _ _ member with other | ⟨other, printed⟩
    · cases other
    · cases printed
  by_cases command : tokenize line = []
  · simp [executeLine, command]
  · rw [executeLine_eq_aftermath command]
    intro member
    rcases List.mem_cons.mp member with executing | member
    · cases executing
    · rcases List.mem_append.mp member with member | member
      · exact performed member
      · cases List.filterMap_eq_nil_iff.mp (outline_aftermath _ _ _) _ member

/-- Handling an answer shows no prompt. -/
theorem not_prompted_answer (session : Session) (reading : Reading) (write : Write) :
    .prompted write ∉ (session.answer reading).events := by
  cases reading with
  | line text =>
      rw [(session.answer_line text).2]
      exact session.not_prompted_executeLine text write
  | overflow => 
      intro member
      simp [answer, report] at member
  | interrupted => exact List.not_mem_nil
  | finished => exact List.not_mem_nil
  | failed cause => exact List.not_mem_nil

theorem not_prompted_sourceLines (session : Session) (lines : List String) (write : Write) :
    .prompted write ∉ (session.sourceLines lines).events := by
  induction lines generalizing session with
  | nil => exact List.not_mem_nil
  | cons line rest ih =>
      rw [sourceLines]
      dsimp only
      cases (session.executeLine line).result with
      | exit => exact session.not_prompted_executeLine line write
      | proceed =>
          intro member
          rcases List.mem_append.mp member with member | member
          · exact session.not_prompted_executeLine line write member
          · exact ih _ member

end Session

/-- What a limited session does, next to what it does when its output stream takes everything: the
same as a whole, or the same up to a prompt that does not arrive. -/
inductive Session.FallsShort {α : Type} (session : Session) (closed : α)
    (limited unlimited : Step α) : Prop where
  | whole (resembles : limited.Resembles DifferInOutput SamePastOutput unlimited)
      (prompts : ∀ write, .prompted write ∈ limited.events → write.complete = true)
  | stopped {before : List Event} {write : Write} (result : limited.result = closed)
      (shows : session.settings.shownPrompt ≠ "")
      (events : limited.events = before ++ [.prompted write]) (cut : write.complete = false)
      (prompts : ∀ write, .prompted write ∈ before → write.complete = true)
      (begins : outline limited.events <+: outline unlimited.events)
      (room : ∀ room, session.out.room = some room →
        room < (offered .output limited.events).length)

namespace Session

variable {α : Type} {closed : α} {first mid : Session}

/-- What happens before is the same if nothing of a prompt is lost in it. -/
theorem FallsShort.after {result result' : α} {session session' : Session}
    {before before' events events' : List Event} (earlier : SamePastOutput before before')
    (prompts : ∀ write, .prompted write ∈ before → write.complete = true)
    (accounts : first.Accounts mid before) (settings : mid.settings = first.settings)
    (later : mid.FallsShort closed ⟨result, session, events⟩ ⟨result', session', events'⟩) :
    first.FallsShort closed ⟨result, session, before ++ events⟩
      ⟨result', session', before' ++ events'⟩ := by
  cases later with
  | whole resembles arrive =>
      refine .whole ⟨resembles.result, resembles.session, earlier.append resembles.events⟩ ?_
      intro write member
      exact (List.mem_append.mp member).elim (prompts write) (arrive write)
  | @stopped between write closed shows ends cut arrive begins room =>
      have ends : events = between ++ [.prompted write] := ends
      have split : before ++ events = (before ++ between) ++ [.prompted write] := by
        rw [ends, List.append_assoc]
      rw [settings] at shows
      refine .stopped closed shows split cut ?_ ?_ ?_
      · intro write member
        exact (List.mem_append.mp member).elim (prompts write) (arrive write)
      · dsimp only
        rw [outline_append, outline_append, earlier.outlines]
        exact (List.prefix_append_right_inj _).mpr begins
      · intro bound limited
        have left : mid.out = first.out.written (offered .output before) := accounts.sink .output
        have rest : bound - (offered .output before).length < (offered .output events).length :=
          room _ (by rw [left, Sink.written, limited]; rfl)
        rw [offered_append, List.length_append]
        omega

/-- A prompt arrives as a whole, or it ends the session. -/
theorem fallsShort_showPrompt {session : Session} (accepts : session.err.room = none)
    (flushes : session.settings.shownPrompt = "" ∨ session.out.flushes = true)
    (shownBySource : Bool) :
    session.FallsShort (.error (.io .closed)) (session.showPrompt shownBySource)
      (session.openOut.showPrompt shownBySource) := by
  have same : session.openOut.settings = session.settings := rfl
  have takes : session.openOut.out = {} := rfl
  rw [showPrompt_of_takes takes, same, prompting, showPrompt]
  dsimp only
  have silent : ∀ write, .prompted write ∈ ([] : List Event) → write.complete = true := by
    intro write none
    cases none
  split
  case isTrue => exact .whole ⟨rfl, ⟨accepts, rfl⟩, .nil⟩ silent
  case isFalse shows =>
    have some : session.settings.shownPrompt ≠ "" := by
      intro quiet
      rw [quiet] at shows
      exact absurd rfl shows
    have flushes : session.out.flushes = true := flushes.resolve_left some
    generalize bytesOf session.settings.shownPrompt = prompt
    have outlines : ∀ more, outline (.prompted (session.out.write prompt) :: more) =
        .prompted ⟨prompt, prompt⟩ :: outline more := by
      intro more
      simp only [outline, List.filterMap_cons, Event.outline?, Sink.offered_write]
    cases complete : (session.out.write prompt).complete with
    | true =>
        rw [flushes]
        refine .whole ⟨rfl, ⟨accepts, rfl⟩, ?_, ?_, 0, rfl, rfl⟩ ?_
        · exact outlines _
        · rintro write rest ⟨⟩
        · intro write member
          simp only [Bool.not_true, Bool.false_eq_true, if_false, List.mem_cons, List.not_mem_nil,
            or_false] at member
          rcases member with prompted | flushed
          · obtain rfl := Event.prompted.inj prompted
            exact complete
          · cases flushed
    | false =>
        have split : [.prompted (session.out.write prompt)] =
          [] ++ [Event.prompted (session.out.write prompt)] := rfl
        refine .stopped rfl some split complete silent ?_ ?_
        · change outline [.prompted (session.out.write prompt)] <+: [.prompted ⟨prompt, prompt⟩]
          rw [outlines]
          exact List.prefix_rfl
        · intro room limited
          have offers : offered .output [.prompted (session.out.write prompt)] = prompt := by
            rw [offered_cons, offered_nil, List.append_nil, Event.offeredBytes, if_pos rfl,
              Sink.offered_write]
          apply Nat.lt_of_not_le
          intro fits
          have whole : (session.out.write prompt).complete = true := by
            apply (Sink.complete_write_iff _ _).mpr
            intro other same
            obtain rfl := Option.some.inj (limited.symm.trans same)
            rw [← offers]
            exact fits
          cases complete.symm.trans whole

/-- A turn falls short at its prompt or not at all. -/
theorem fallsShort_turn {session : Session} (accepts : session.err.room = none)
    (flushes : session.settings.shownPrompt = "" ∨ session.out.flushes = true)
    (shownBySource : Bool) (reading : Reading) :
    session.FallsShort (some (.error (.io .closed))) (session.turn shownBySource reading)
      (session.openOut.turn shownBySource reading) := by
  have accounts := session.accounts_showPrompt shownBySource
  have arrived : (session.openOut.showPrompt shownBySource).result = .ok () := by
    rw [showPrompt_of_takes rfl]
  cases fallsShort_showPrompt accepts flushes shownBySource with
  | whole resembles prompts =>
      have answered := openOut_companions.answer resembles.session reading
      have read : SamePastOutput [.read session.settings.shownPrompt reading]
          [.read session.openOut.settings.shownPrompt reading] :=
        openOut_companions.read ⟨accepts, rfl⟩ reading
      rw [turn_of_prompted (resembles.result.trans arrived), turn_of_prompted arrived]
      apply FallsShort.after resembles.events prompts accounts (session.settings_showPrompt _)
      refine .whole ⟨answered.result, answered.session, read.append answered.events⟩ ?_
      intro write member
      rcases List.mem_cons.mp member with prompted | member
      · cases prompted
      · exact absurd member (not_prompted_answer _ reading write)
  | stopped result shows events cut prompts begins room =>
      have prefixed : (session.openOut.showPrompt shownBySource).events <+:
          (session.openOut.turn shownBySource reading).events := by
        rw [turn_of_prompted arrived]
        exact List.prefix_append _ _
      rw [turn, result]
      exact .stopped rfl shows events cut prompts (begins.trans (prefixed.filterMap _)) room

/-- A turn leaves the settings, so what holds of the prompt holds at the next turn. -/
theorem settings_turn (session : Session) (shownBySource : Bool) (reading : Reading) :
    (session.turn shownBySource reading).session.settings = session.settings := by
  unfold turn
  dsimp only
  split
  · exact session.settings_showPrompt shownBySource
  · rw [settings_answer, settings_showPrompt]

/-- A run falls short at the prompt of one of its turns or not at all, by induction on the turns. -/
theorem fallsShort_run {σ : Type} [LineSource σ] {session : Session}
    (accepts : session.err.room = none)
    (flushes : session.settings.shownPrompt = "" ∨ session.out.flushes = true) (source : σ) :
    session.FallsShort (.error (.io .closed)) (session.run source)
      (session.openOut.run source) := by
  revert accepts flushes
  apply run_induction (motive := fun session source step =>
    session.err.room = none →
      (session.settings.shownPrompt = "" ∨ session.out.flushes = true) →
        session.FallsShort (.error (.io .closed)) step (session.openOut.run source))
  · intro session source result turned ended accepts flushes
    have ended : (session.turn _ _).result = some result := ended
    have turns := fallsShort_turn accepts flushes (LineSource.showsPrompt source)
      (LineSource.next source).1
    cases turns with
    | whole resembles prompts =>
        rw [run_eq_turn session.openOut source]
        dsimp only
        rw [← resembles.result, ended]
        exact .whole ⟨rfl, resembles.session, resembles.events⟩ prompts
    | stopped closed shows events cut prompts begins room =>
        rw [ended] at closed
        have first := session.openOut.turn_prefix_run source
        exact .stopped (Option.some.inj closed) shows events cut prompts
          (begins.trans (first.filterMap _)) room
  · intro session source later turned more ih accepts flushes
    have more : (session.turn _ _).result = none := more
    have turns := fallsShort_turn accepts flushes (LineSource.showsPrompt source)
      (LineSource.next source).1
    cases turns with
    | whole resembles prompts =>
        obtain ⟨accepts', same⟩ := resembles.session
        have accounts := session.accounts_turn (LineSource.showsPrompt source)
          (LineSource.next source).1
        have rest := ih accepts' (by rw [settings_turn, accounts.flushes]; exact flushes)
        rw [← same] at rest
        rw [run_eq_turn session.openOut source]
        dsimp only
        rw [← resembles.result, more]
        exact FallsShort.after resembles.events prompts accounts (session.settings_turn _ _) rest
    | stopped closed =>
        rw [closed] at more
        cases more

/-- Startup lines show no prompt, so a session falls short in its run or not at all. -/
theorem fallsShort_play {σ : Type} [LineSource σ] {session : Session}
    (accepts : session.err.room = none)
    (flushes : session.settings.shownPrompt = "" ∨ session.out.flushes = true)
    (lines : List String) (source : σ) :
    session.FallsShort (.error (.io .closed)) (session.play lines source)
      (session.openOut.play lines source) := by
  have sourced := openOut_companions.sourceLines ⟨accepts, rfl⟩ lines
  have accounts := session.accounts_sourceLines lines
  have prompts : ∀ write, .prompted write ∈ (session.sourceLines lines).events →
      write.complete = true := fun write member => absurd member (not_prompted_sourceLines _ _ _)
  have settings := session.settings_sourceLines lines
  obtain ⟨accepts', same⟩ := sourced.session
  unfold play
  dsimp only
  rw [← sourced.result]
  cases (session.sourceLines lines).result with
  | exit => exact .whole ⟨rfl, ⟨accepts', same⟩, sourced.events⟩ prompts
  | proceed =>
      have ran := fallsShort_run accepts' (by rw [settings, accounts.flushes]; exact flushes) source
      rw [← same] at ran
      exact .after sourced.events prompts accounts settings ran

end Session

/-- A session of which output was lost, and the same session without that loss: they come to the
same, read and execute the same and start programs that write the same.  Besides the diagnostics of
the second the first has one for each directory that it failed to show. -/
structure Step.LosesOutput {α : Type} (limited unlimited : Step α) : Prop where
  result : limited.result = unlimited.result
  session : limited.session.openOut = unlimited.session
  reads : reads limited.events = reads unlimited.events
  executed : executed limited.events = executed unlimited.events
  programs : ∀ stream, programsWrote stream limited.events = programsWrote stream unlimited.events
  diagnosed : ∃ count, shellWrote .error unlimited.events = diagnostics count ∧
    shellWrote .error limited.events = diagnostics (count + lostDirectories limited.events)

/-- What was read does not depend on what arrived, and neither do the views below. -/
theorem reads_outline (events : List Event) : reads (outline events) = reads events :=
  filterMap_outline events fun event => by cases event <;> rfl

theorem executed_outline (events : List Event) : executed (outline events) = executed events :=
  filterMap_outline events fun event => by cases event <;> rfl

theorem programsWrote_outline (stream : Stream) (events : List Event) :
    programsWrote stream (outline events) = programsWrote stream events :=
  flatMap_outline events fun event => by cases event <;> rfl

theorem offered_output_outline (events : List Event) :
    offered .output (outline events) = offered .output events :=
  flatMap_outline events fun event => by cases event <;> rfl

namespace Session

variable {α : Type} {closed : α} {session : Session} {limited unlimited : Step α}

/-- Sessions that tell the same but for their directories differ in lost output only. -/
theorem losesOutput_of_resembles
    (resembles : limited.Resembles DifferInOutput SamePastOutput unlimited) :
    limited.LosesOutput unlimited where
  result := resembles.result
  session := resembles.session.2.symm
  reads := by rw [← reads_outline, resembles.events.outlines, reads_outline]
  executed := by rw [← executed_outline, resembles.events.outlines, executed_outline]
  programs stream := by
    rw [← programsWrote_outline, resembles.events.outlines, programsWrote_outline]
  diagnosed := resembles.events.diagnosed

/-- Of all the output there is, as much arrives as there is room for. -/
theorem FallsShort.output (falls : session.FallsShort closed limited unlimited) {room : Nat}
    (limits : session.out.room = some room) {last last' : Session}
    (accounts : session.Accounts last limited.events)
    (accounts' : session.openOut.Accounts last' unlimited.events) :
    shellWrote .output limited.events = (shellWrote .output unlimited.events).take room := by
  have cut : shellWrote .output limited.events = (offered .output limited.events).take room := by
    rw [accounts.wrote]
    exact Sink.taken_of_room_eq_some limits _
  have whole : shellWrote .output unlimited.events = offered .output unlimited.events := by
    rw [accounts'.wrote]
    exact Sink.taken_of_room_eq_none rfl _
  rw [cut, whole]
  cases falls with
  | whole resembles prompts =>
      rw [← offered_output_outline, resembles.events.outlines, offered_output_outline]
  | stopped result shows events lost prompts begins room =>
      obtain ⟨rest, joined⟩ := begins
      rw [← offered_output_outline unlimited.events, ← joined, offered_append,
        offered_output_outline, List.take_append_of_le_length]
      exact Nat.le_of_lt (room _ limits)

/-- A session with little room for its output loses the output for which there is no room, and
otherwise next to nothing.

What arrives of its output is the first `room` bytes of what arrives without the limit.  As long as
no prompt is lost, and so in quiet mode always, whether its output can be flushed or not, it comes
to the same as without the limit, and has no more diagnostics than one for each directory that it
failed to show.  The first prompt that does not arrive as a whole ends it with that failure, and
nothing is read or executed after that. -/
theorem output_limited {σ : Type} [LineSource σ] (session : Session)
    (accepts : session.err.room = none) (room : Nat) (lines : List String) (source : σ) :
    let unlimited := { session with out := {} }.play lines source
    let limited (flushes : Bool) := { session with out := ⟨some room, flushes⟩ }.play lines source
    shellWrote .output (limited true).events = (shellWrote .output unlimited.events).take room ∧
      ((∀ write, .prompted write ∈ (limited true).events → write.complete = true) →
        (limited true).LosesOutput unlimited) ∧
      (∀ before write after, (limited true).events = before ++ .prompted write :: after →
        write.complete = false →
          (limited true).result = .error (.io .closed) ∧ after = [] ∧
            reads (limited true).events <+: reads unlimited.events ∧
            executed (limited true).events <+: executed unlimited.events) ∧
      (session.settings.shownPrompt = "" → ∀ flushes,
        shellWrote .output (limited flushes).events =
            (shellWrote .output unlimited.events).take room ∧
          (limited flushes).LosesOutput unlimited) := by
  intro unlimited limited
  have falls : ∀ flushes, session.settings.shownPrompt = "" ∨ flushes = true →
      Session.FallsShort { session with out := ⟨some room, flushes⟩ } (.error (.io .closed))
        (limited flushes) unlimited := by
    intro flushes either
    have accepts' : ({ session with out := ⟨some room, flushes⟩ } : Session).err.room = none :=
      accepts
    exact fallsShort_play accepts' either lines source
  have output : ∀ flushes, session.settings.shownPrompt = "" ∨ flushes = true →
      shellWrote .output (limited flushes).events =
        (shellWrote .output unlimited.events).take room := by
    intro flushes either
    exact (falls flushes either).output rfl (accounts_play _ lines source)
      (accounts_play _ lines source)
  refine ⟨output true (.inr rfl), ?_, ?_, ?_⟩
  · intro arrive
    cases falls true (.inr rfl) with
    | whole resembles => exact losesOutput_of_resembles resembles
    | @stopped before write result shows events cut =>
        have complete := arrive write (by rw [events]; exact List.mem_concat_self)
        cases cut.symm.trans complete
  · intro before write after split lost
    cases falls true (.inr rfl) with
    | whole resembles prompts =>
        have complete := prompts write (by rw [split]; simp)
        cases lost.symm.trans complete
    | @stopped earlier last result shows events cut prompts begins =>
        refine ⟨result, ?_, ?_, ?_⟩
        · rcases List.eq_nil_or_concat after with rfl | ⟨rest, final, rfl⟩
          · rfl
          -- Otherwise the prompt is an earlier one than the last event, and those arrived.
          · have joined : earlier ++ [.prompted last] =
                (before ++ .prompted write :: rest) ++ [final] := by
              rw [← events, split, List.append_assoc, List.cons_append, List.concat_eq_append]
            obtain rfl := (List.append_inj' joined rfl).1
            cases lost.symm.trans (prompts write (by simp))
        · have first : reads (outline (limited true).events) <+: reads (outline unlimited.events) :=
            begins.filterMap _
          rw [reads_outline, reads_outline] at first
          exact first
        · have first : executed (outline (limited true).events) <+:
              executed (outline unlimited.events) := begins.filterMap _
          rw [executed_outline, executed_outline] at first
          exact first
  · intro quiet flushes
    refine ⟨output flushes (.inl quiet), ?_⟩
    cases falls flushes (.inl quiet) with
    | whole resembles => exact losesOutput_of_resembles resembles
    | stopped result shows => exact absurd quiet shows

/-- Room for one directory and one prompt: the directory after that is reported instead, and the
next prompt is the end.  In quiet mode there is room for a part of a directory, and the failure of
`cd` is reported once. -/
theorem output_limited_loud_and_quiet :
    let session : Session := {}
    let source : ScriptedSource := { answers := [.line "pwd", .line "cd nowhere"] }
    let limited := { session with out := ⟨some 10, true⟩ }.play ["pwd"] source
    let unlimited := { session with out := {} }.play ["pwd"] source
    let quiet : Session := { settings.quiet := true }
    let limited' := { quiet with out := ⟨some 1, false⟩ }.play ["pwd"] source
    let unlimited' := { quiet with out := {} }.play ["pwd"] source
    session.err.room = none ∧ quiet.err.room = none ∧ quiet.settings.shownPrompt = "" ∧
      limited.result = .error (.io .closed) ∧ reads limited.events = [.line "pwd"] ∧
      lostDirectories limited.events = 1 ∧
      shellWrote .output limited.events = (shellWrote .output unlimited.events).take 10 ∧
      lostDirectories limited'.events = 2 ∧
      shellWrote .error limited'.events = diagnostics 3 ∧
      limited'.LosesOutput unlimited' := by
  intro session source limited unlimited quiet limited' unlimited'
  refine ⟨rfl, rfl, rfl, ?_, ?_, ?_, ?_, ?_, ?_, ?_⟩
  · have ends : limited.events =
        limited.events.dropLast ++ [.prompted ⟨bytesOf "whoosh> ", []⟩] := by decide +kernel
    exact ((output_limited session rfl 10 ["pwd"] source).2.2.1 _ _ _ ends rfl).1
  · decide +kernel
  · decide +kernel
  · exact (output_limited session rfl 10 ["pwd"] source).1
  · decide +kernel
  · decide +kernel
  · exact ((output_limited quiet rfl 1 ["pwd"] source).2.2.2 rfl false).2

end Session
end CommandShell
