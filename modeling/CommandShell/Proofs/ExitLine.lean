/-
Module: CommandShell.Proofs.ExitLine
Purpose: A session ends at the first line that leaves it, and what comes after it does not matter.
Trusted boundary: none
Main exports:
  Leaves, Session.result_executeLine_exit_iff, Reading.GoesOn, Session.result_answer_eq_none_iff,
  Session.History.run_until, LineStream.run_eq_of_leaves, Session.result_sourceLines_exit_iff,
  Session.sourceLines_of_leaves, Session.exit_ends_session
-/
import CommandShell.Proofs.ExecutedLines
import CommandShell.Proofs.LineStream
import CommandShell.Proofs.Prompts

namespace CommandShell

/-- A line that leaves the session: its first token is `exit`, whatever follows. -/
def Leaves (line : String) : Prop :=
  (tokenize line).head? = some "exit"

instance (line : String) : Decidable (Leaves line) :=
  inferInstanceAs (Decidable ((tokenize line).head? = some "exit"))

/-- No program makes a session end. -/
theorem World.outcome_runProgram_ne_exit (world : World) (settings : Settings) (name : String)
    (rest : List String) : (world.runProgram settings (name :: rest)).outcome ≠ .ok .exit := by
  have cases := world.runProgram_cases settings name rest
  generalize world.runProgram settings (name :: rest) = effect at cases
  intro left
  cases cases with
  | refused => cases left
  | unresolved => cases left
  | launched =>
      unfold afterLaunch at left
      dsimp only at left
      split at left <;> cases left

/-- Of the built-in commands it is `exit` that does. -/
theorem Builtin.outcome_perform_exit_iff {builtin : Builtin} {world : World}
    {arguments : List String} :
    (builtin.perform world arguments).outcome = .ok .exit ↔ builtin = .exit := by
  constructor
  · intro left
    cases builtin with
    | exit => rfl
    | path => cases left
    | pwd =>
        dsimp only [perform] at left
        unfold World.printDirectory at left
        split at left <;> cases left
    | cd =>
        dsimp only [perform] at left
        unfold World.changeDirectory at left
        split at left
        · cases left
        · split at left <;> cases left
  · rintro rfl
    rfl

namespace Session

/-- A command leaves the session exactly if it is `exit`.  What a command prints may be lost, but
`exit` prints nothing. -/
theorem result_perform_exit_iff (session : Session) (tokens : List String) :
    (session.perform tokens).result = .ok .exit ↔ tokens.head? = some "exit" := by
  cases tokens with
  | nil =>
      constructor
      · intro left
        cases left
      · intro none
        cases none
  | cons name arguments =>
      have named : Builtin.ofName? name = some .exit ↔ name = "exit" :=
        Builtin.ofName?_eq_some_iff
      rw [List.head?_cons, Option.some.injEq, ← named]
      cases called : Builtin.ofName? name with
      | none =>
          rw [perform_external called]
          constructor
          · intro left
            exact absurd left (World.outcome_runProgram_ne_exit _ _ _ _)
          · intro none
            cases none
      | some builtin =>
          rw [perform, World.perform, called]
          constructor
          · intro left
            dsimp only at left
            have exit : (builtin.perform session.world arguments).outcome = .ok .exit := by
              split at left
              · exact left
              · dsimp only at left
                split at left
                · exact left
                · cases left
            rw [Builtin.outcome_perform_exit_iff.mp exit]
          · rintro ⟨⟩
            rfl

/-- A line leaves the session exactly if its first token says so. -/
theorem result_executeLine_exit_iff (session : Session) (line : String) :
    (session.executeLine line).result = .exit ↔ Leaves line := by
  rw [Leaves, ← session.result_perform_exit_iff]
  have cases := session.executeLine_cases line
  generalize session.executeLine line = done at cases
  cases cases with
  | blank blank =>
      rw [blank]
      constructor
      · intro left
        cases left
      · intro left
        cases left
  | succeeded _ succeeded => rw [succeeded, Except.ok.injEq]
  | failed _ failed =>
      rw [failed]
      constructor
      · intro left
        cases left
      · intro left
        cases left

/-- After every other line a session goes on, also if the line fails. -/
theorem result_executeLine_proceed_iff (session : Session) (line : String) :
    (session.executeLine line).result = .proceed ↔ ¬ Leaves line := by
  rw [← session.result_executeLine_exit_iff]
  cases (session.executeLine line).result with
  | proceed => simp
  | exit => simp

end Session

/-- The answer lets the session go on, and so does the line that it delivers. -/
def Reading.GoesOn (reading : Reading) : Prop :=
  reading.continues = true ∧ ∀ line, reading = .line line → ¬ Leaves line

theorem Reading.goesOn_line_iff {text : String} : (line text).GoesOn ↔ ¬ Leaves text := by
  constructor
  · intro goesOn
    exact goesOn.2 text rfl
  · intro stays
    refine ⟨rfl, ?_⟩
    rintro other ⟨⟩
    exact stays

namespace Session

/-- A session ends well with a line that leaves. -/
theorem result_answer_of_leaves {session : Session} {line : String} (leaves : Leaves line) :
    (session.answer (.line line)).result = some (.ok ()) := by
  unfold answer
  dsimp only
  rw [(session.result_executeLine_exit_iff line).mpr leaves]

/-- A session goes on after an answer if and only if the answer lets it. -/
theorem result_answer_eq_none_iff {session : Session} {reading : Reading} :
    (session.answer reading).result = none ↔ reading.GoesOn := by
  constructor
  · intro goesOn
    refine ⟨continues_of_answer goesOn, ?_⟩
    rintro line rfl leaves
    cases (result_answer_of_leaves leaves).symm.trans goesOn
  · intro goesOn
    cases reading with
    | line text =>
        unfold answer
        dsimp only
        rw [(session.result_executeLine_proceed_iff text).mpr (Reading.goesOn_line_iff.mp goesOn)]
    | overflow => rfl
    | interrupted => rfl
    | finished => cases goesOn.1
    | failed cause => cases goesOn.1

end Session

/-! ### Runs up to a line that leaves -/

namespace Session

variable {σ : Type} [LineSource σ] {session : Session} {source : σ}

/-- A run that reads a line that leaves ends with it. -/
theorem run_of_leaves {text : String} (next : (LineSource.next source).1 = .line text)
    (leaves : Leaves text) (arrive : PromptsArrive (session.run source).events) :
    session.run source =
      let prompted := session.showPrompt (LineSource.showsPrompt source)
      let answered := prompted.session.answer (.line text)
      ⟨.ok (), answered.session,
        prompted.events ++ .read session.settings.shownPrompt (.line text) ::
          answered.events⟩ := by
  have prompted := result_showPrompt_of_turn (arrive.of_infix (session.turn_isInfix_run source))
  rw [run_eq_turn, next, turn_of_prompted prompted]
  dsimp only
  rw [result_answer_of_leaves leaves]

/-- A run that reads something to go on after goes on with the rest of the source. -/
theorem run_of_goesOn (goesOn : (LineSource.next source).1.GoesOn)
    (arrive : PromptsArrive (session.run source).events) :
    session.run source =
      let prompted := session.showPrompt (LineSource.showsPrompt source)
      let answered := prompted.session.answer (LineSource.next source).1
      let later := answered.session.run (LineSource.next source).2
      { later with
        events := prompted.events ++
          .read session.settings.shownPrompt (LineSource.next source).1 :: answered.events ++
          later.events } := by
  have prompted := result_showPrompt_of_turn (arrive.of_infix (session.turn_isInfix_run source))
  rw [run_eq_turn, turn_of_prompted prompted]
  dsimp only
  rw [result_answer_eq_none_iff.mpr goesOn]

/-- A run whose source delivers a line that leaves handles all up to this line and ends there. -/
theorem History.run_until {first : Session} {handled : List Handled} {events : List Event}
    (history : first.History handled session events) {before : List Reading} {text : String}
    (delivered : LineSource.readings (before.length + 1) source = before ++ [.line text])
    (goesOn : ∀ reading ∈ before, reading.GoesOn) (leaves : Leaves text)
    (arrive : PromptsArrive (session.run source).events) :
    (session.run source).result = .ok () ∧
      reads (session.run source).events = before ++ [.line text] ∧
      ∃ taken, taken.map Handled.reading = before ++ [.line text] ∧
        first.History (handled ++ taken) (session.run source).session
          (events ++ (session.run source).events) := by
  induction before generalizing session source handled events with
  | nil =>
      have next : (LineSource.next source).1 = .line text := (List.cons.inj delivered).1
      rw [run_of_leaves next leaves arrive]
      refine ⟨rfl, ?_, [⟨_, .line text⟩], rfl, history.asked _ _⟩
      simp only [reads_append, reads_showPrompt, reads_read, reads_answer, List.nil_append]
  | cons reading before ih =>
      obtain ⟨rfl, rest⟩ := List.cons.inj delivered
      -- What arrives in the whole run arrives in what is left of it after the first turn.
      have ran := run_of_goesOn (goesOn _ List.mem_cons_self) arrive
      rw [ran] at arrive ⊢
      obtain ⟨ended, read, taken, these, whole⟩ := ih (history.asked _ _) rest
        (fun other member => goesOn other (List.mem_cons_of_mem _ member))
        (arrive.of_infix (List.suffix_append _ _).isInfix)
      refine ⟨ended, ?_, ⟨(session.showPrompt (LineSource.showsPrompt source)).session,
        (LineSource.next source).1⟩ :: taken, ?_, ?_⟩
      · simp only [reads_append, reads_showPrompt, reads_read, reads_answer, List.nil_append, read,
          List.cons_append]
      · rw [List.map_cons, these, List.cons_append]
      · rw [List.append_cons, ← List.append_assoc]
        exact whole

end Session

/-- A turn lets the session go on only after an answer that does. -/
theorem Session.goesOn_of_turn {session : Session} {shownBySource : Bool} {reading : Reading}
    (more : (session.turn shownBySource reading).result = none) : reading.GoesOn := by
  unfold turn at more
  dsimp only at more
  split at more
  · cases more
  · exact result_answer_eq_none_iff.mp more

/-- What a source answers once the session has ended does not matter to it. -/
theorem Session.run_eq_of_next {σ : Type} [LineSource σ] {one other : σ}
    (prompts : LineSource.showsPrompt one = LineSource.showsPrompt other)
    (same : (LineSource.next one).1 = (LineSource.next other).1)
    (later : (LineSource.next one).1.GoesOn → ∀ session : Session,
      session.run (LineSource.next one).2 = session.run (LineSource.next other).2)
    (session : Session) : session.run one = session.run other := by
  rw [run_eq_turn session one, run_eq_turn session other, ← prompts, ← same]
  dsimp only
  cases turned : (session.turn (LineSource.showsPrompt one) (LineSource.next one).1).result with
  | some result => rfl
  | none =>
      dsimp only
      rw [later (goesOn_of_turn turned)]

/-- Streams that are the same up to a line that leaves are one stream to a session. -/
theorem LineStream.run_eq_of_leaves {limit : Nat} {lines : List Bytes} {last : Bytes}
    (single : ∀ line ∈ lines ++ [last], newline ∉ line) (short : last.length < limit)
    (leaves : Leaves (shown last)) (rest rest' : List Item) (session : Session) :
    session.run (mk limit ((lines ++ [last]).flatMap terminated ++ rest)) =
      session.run (mk limit ((lines ++ [last]).flatMap terminated ++ rest')) := by
  induction lines generalizing session with
  | nil =>
      have next : ∀ items,
          LineSource.next (mk limit (([] ++ [last]).flatMap terminated ++ items)) =
            (.line (shown last), mk limit items) := by
        intro items
        rw [List.nil_append, List.flatMap_cons, List.flatMap_nil, List.append_nil]
        change LineStream.next _ = _
        rw [next_terminated (single last List.mem_cons_self), if_pos short]
      refine Session.run_eq_of_next ?_ ?_ ?_ session
      · rfl
      · rw [next, next]
      · intro goesOn
        rw [next] at goesOn
        exact absurd leaves (Reading.goesOn_line_iff.mp goesOn)
  | cons line lines ih =>
      have next : ∀ items,
          LineSource.next (mk limit ((line :: lines ++ [last]).flatMap terminated ++ items)) =
            (if line.length < limit then .line (shown line) else .overflow,
              mk limit ((lines ++ [last]).flatMap terminated ++ items)) := by
        intro items
        rw [List.cons_append, List.flatMap_cons, List.append_assoc]
        exact next_terminated (single line List.mem_cons_self) _
      have later := ih fun other member => single other (List.mem_cons_of_mem line member)
      refine Session.run_eq_of_next ?_ ?_ ?_ session
      · rfl
      · rw [next, next]
      · intro _ session
        rw [next, next]
        exact later session

namespace Session

/-- The lines after one that leaves are not looked at. -/
theorem sourceLines_cons_of_leaves {session : Session} {line : String} (leaves : Leaves line)
    (rest : List String) : session.sourceLines (line :: rest) = session.executeLine line := by
  rw [sourceLines]
  dsimp only
  rw [(session.result_executeLine_exit_iff line).mpr leaves]

/-- After a line that stays the others follow, in the session that it leaves. -/
theorem sourceLines_cons_of_stays {session : Session} {line : String} (stays : ¬ Leaves line)
    (rest : List String) :
    session.sourceLines (line :: rest) =
      let executed := session.executeLine line
      let later := executed.session.sourceLines rest
      { later with events := executed.events ++ later.events } := by
  rw [sourceLines]
  dsimp only
  rw [(session.result_executeLine_proceed_iff line).mpr stays]

/-- Startup lines leave the session exactly if one of them does. -/
theorem result_sourceLines_exit_iff (session : Session) (lines : List String) :
    (session.sourceLines lines).result = .exit ↔ ∃ line ∈ lines, Leaves line := by
  induction lines generalizing session with
  | nil => simp [sourceLines]
  | cons line rest ih =>
      by_cases leaves : Leaves line
      · rw [sourceLines_cons_of_leaves leaves, result_executeLine_exit_iff]
        simp [leaves]
      · rw [sourceLines_cons_of_stays leaves]
        dsimp only
        rw [ih]
        simp [leaves]

/-- Startup lines after one that leaves do nothing, and those before it are executed in order. -/
theorem sourceLines_of_leaves {before : List String} {line : String}
    (stay : ∀ earlier ∈ before, ¬ Leaves earlier) (leaves : Leaves line) (after : List String)
    (session : Session) :
    session.sourceLines (before ++ line :: after) = session.sourceLines (before ++ [line]) ∧
      executed (session.sourceLines (before ++ line :: after)).events = before ++ [line] := by
  induction before generalizing session with
  | nil =>
      rw [List.nil_append, List.nil_append, sourceLines_cons_of_leaves leaves,
        sourceLines_cons_of_leaves leaves]
      exact ⟨rfl, executed_executeLine session line⟩
  | cons earlier before ih =>
      have stays := stay earlier List.mem_cons_self
      obtain ⟨same, these⟩ := ih (fun other member => stay other (List.mem_cons_of_mem _ member))
        (session.executeLine earlier).session
      rw [List.cons_append, List.cons_append, sourceLines_cons_of_stays stays,
        sourceLines_cons_of_stays stays]
      dsimp only
      rw [executed_append, executed_executeLine, these, same]
      exact ⟨rfl, rfl⟩

end Session

namespace Reader

/-- A reader that has nothing more to give says so each time it is asked. -/
theorem readings_of_finished {reader : Reader} (finished : reader.next.1 = .finished)
    (count : Nat) : LineSource.readings count reader = List.replicate count .finished := by
  induction count generalizing reader with
  | zero => rfl
  | succ count ih =>
      rw [LineSource.readings, List.replicate_succ]
      exact List.cons_eq_cons.mpr ⟨finished, ih (finished_next finished)⟩

/-- A reader that delivers a line has not finished before. -/
theorem finished_not_mem_of_readings {reader : Reader} {before : List Reading} {text : String}
    (delivered : LineSource.readings (before.length + 1) reader = before ++ [.line text]) :
    .finished ∉ before := by
  induction before generalizing reader with
  | nil => exact List.not_mem_nil
  | cons reading before ih =>
      obtain ⟨next, rest⟩ := List.cons.inj delivered
      intro member
      rcases List.mem_cons.mp member with rfl | later
      · have all := readings_of_finished (finished_next next) (before.length + 1)
        have last : Reading.line text ∈ List.replicate (before.length + 1) Reading.finished := by
          rw [← all]
          exact rest ▸ List.mem_append_right before List.mem_cons_self
        cases List.eq_of_mem_replicate last
      · exact ih rest later

end Reader

namespace Session

/-- A session ends at the first line that leaves it, and there only.  Over a reader, unless it or a
prompt fails before, the lines up to this one are executed in order, and no more is read than what
has been handled.  Whatever the input holds after the newline of this line, the run is the same.
Lines that are known beforehand leave the session exactly if one of them does, and those after the
first that does might as well not be there. -/
theorem exit_ends_session (session : Session) (limit : Nat) :
    (∀ (supply : Supply) (before : List Reading) (text : String),
      let ran := session.run (Reader.mk limit supply)
      LineSource.readings (before.length + 1) (Reader.mk limit supply) = before ++ [.line text] →
      (∀ line, .line line ∈ before → ¬ Leaves line) → Leaves text →
      (∀ cause, .failed cause ∉ before) → PromptsArrive ran.events →
      ran.result = .ok () ∧ reads ran.events = before ++ [.line text] ∧
        executed ran.events = before.filterMap Reading.line? ++ [text] ∧
        ∃ handled, handled.map Handled.reading = before ++ [.line text] ∧
          session.History handled ran.session ran.events) ∧
    (∀ (one other : Supply) (lines : List Bytes) (last : Bytes) (rest rest' : List Item),
      (∀ line ∈ lines ++ [last], newline ∉ line) → last.length < limit → Leaves (shown last) →
      one.stream = (lines ++ [last]).flatMap terminated ++ rest →
      other.stream = (lines ++ [last]).flatMap terminated ++ rest' →
      session.run (Reader.mk limit one) = session.run (Reader.mk limit other)) ∧
    (∀ lines, (session.sourceLines lines).result = .exit ↔ ∃ line ∈ lines, Leaves line) ∧
    ∀ (before : List String) (line : String) (after : List String),
      (∀ earlier ∈ before, ¬ Leaves earlier) → Leaves line →
      session.sourceLines (before ++ line :: after) = session.sourceLines (before ++ [line]) ∧
        executed (session.sourceLines (before ++ line :: after)).events = before ++ [line] := by
  refine ⟨?_, ?_, session.result_sourceLines_exit_iff, ?_⟩
  · intro supply before text ran delivered stay leaves sound arrive
    have goesOn : ∀ reading ∈ before, reading.GoesOn := by
      intro reading member
      cases reading with
      | line line => exact Reading.goesOn_line_iff.mpr (stay line member)
      | overflow => exact ⟨rfl, fun line none => nomatch none⟩
      | interrupted => exact ⟨rfl, fun line none => nomatch none⟩
      | finished => exact absurd member (Reader.finished_not_mem_of_readings delivered)
      | failed cause => exact absurd member (sound cause)
    obtain ⟨ended, read, handled, these, history⟩ :=
      History.start.run_until delivered goesOn leaves arrive
    refine ⟨ended, read, ?_, handled, these, history⟩
    calc executed ran.events
        = handled.filterMap Handled.line? := history.executed_eq
      _ = (handled.map Handled.reading).filterMap Reading.line? := List.filterMap_map.symm
      _ = before.filterMap Reading.line? ++ [text] := by
        rw [these, List.filterMap_append]
        rfl
  · intro one other lines last rest rest' single short leaves first second
    have positive : 1 ≤ limit := Nat.lt_of_le_of_lt (Nat.zero_le _) short
    have flat : ∀ supply : Supply, session.run (Reader.mk limit supply) =
        session.run (LineStream.mk limit supply.stream) := by
      intro supply
      exact Reader.lineStream_simulation.run_eq (fun _ => rfl) ⟨positive, rfl⟩ session
    rw [flat one, flat other, first, second]
    exact LineStream.run_eq_of_leaves single short leaves rest rest' session
  · intro before line after stay leaves
    exact sourceLines_of_leaves stay leaves after session

/-- A command that fails, a line that is too long and a line that leaves, once with a command after
them and once with a failure of the input, which are never seen. -/
theorem exit_ends_session_unseen :
    let session : Session := {}
    let one : Supply :=
      ⟨bytesOf "cd", [.interrupted, .chunk (bytesOf " x\n12345"), .chunk (bytesOf "67\nexit 1\npwd")]⟩
    let other : Supply := ⟨bytesOf "cd x\n1234567\nexit 1\n", [.failed .closed]⟩
    (session.run (Reader.mk 7 one)).result = .ok () ∧
      reads (session.run (Reader.mk 7 one)).events =
        [.line "cd x", .overflow, .line "exit 1"] ∧
      executed (session.run (Reader.mk 7 one)).events = ["cd x", "exit 1"] ∧
      session.run (Reader.mk 7 one) = session.run (Reader.mk 7 other) ∧
      (session.sourceLines ["cd x", "exit 1", "pwd"]).result = .exit ∧
      executed (session.sourceLines ["cd x", "exit 1", "pwd"]).events = ["cd x", "exit 1"] := by
  intro session one other
  obtain ⟨run, twoRuns, source, unseen⟩ := exit_ends_session session 7
  have delivered : LineSource.readings 3 (Reader.mk 7 one) =
      [.line "cd x", .overflow, .line "exit 1"] := by
    rw [Reader.lineStream_simulation.readings_eq ⟨by decide, rfl⟩ 3]
    decide
  have stay : ∀ line, Reading.line line ∈ [.line "cd x", .overflow] → ¬ Leaves line := by
    intro line member
    simp only [List.mem_cons, Reading.line.injEq, List.not_mem_nil, or_false, reduceCtorEq]
      at member
    subst member
    decide
  have arrive : PromptsArrive (session.run (Reader.mk 7 one)).events := promptsArrive_run rfl _
  have ran := run one [.line "cd x", .overflow] "exit 1" delivered stay (by decide) (by simp)
    arrive
  refine ⟨ran.1, ran.2.1, ran.2.2.1, ?_, ?_, ?_⟩
  · exact twoRuns one other [bytesOf "cd x", bytesOf "1234567"] (bytesOf "exit 1")
      ((bytesOf "pwd").map .byte) [.failure .closed] (by decide) (by decide) (by decide)
      (by decide) (by decide)
  · exact (source _).mpr ⟨"exit 1", by decide, by decide⟩
  · exact (unseen ["cd x"] "exit 1" ["pwd"] (by decide) (by decide)).2

end Session
end CommandShell
