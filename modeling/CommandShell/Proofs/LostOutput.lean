/-
Module: CommandShell.Proofs.LostOutput
Purpose: Commands and lines whose output is cut short.
Trusted boundary: none
Main exports:
  outline, lostDirectories, World.printed_cases, CutShort, Session.openOut,
  Session.perform_openOut, SamePastOutput, Session.DifferInOutput, Session.openOut_companions
-/
import CommandShell.Proofs.Delivery

namespace CommandShell

/-!
A built-in command whose output is cut short fails, and that is reported.  Nothing else is
different: `pwd` is reported that would not have been, and `cd`, which prints only when it has
failed already, is reported as before.
-/

/-- An event as it is when everything arrives, unless it is a flush or a report. -/
def Event.outline? : Event → Option Event
  | .prompted write => some (.prompted ⟨write.offered, write.offered⟩)
  | .printed write => some (.printed ⟨write.offered, write.offered⟩)
  | .flushed .. => none
  | .reported .. => none
  | event => some event

/-- All that happens besides flushes and reports, as it is when everything arrives. -/
def outline (events : List Event) : List Event :=
  events.filterMap Event.outline?

@[simp] theorem outline_append (one other : List Event) :
    outline (one ++ other) = outline one ++ outline other :=
  List.filterMap_append ..

section

variable {α : Type} (events : List Event)

/-- A view that sees neither flushes nor reports, and not how much arrives, sees the same. -/
theorem filterMap_outline {view : Event → Option α}
    (blind : ∀ event : Event, event.outline?.bind view = view event) :
    (outline events).filterMap view = events.filterMap view := by
  rw [outline, List.filterMap_filterMap]
  exact congrArg (fun view => events.filterMap view) (funext blind)

/-- So does a view with any number of items for each event. -/
theorem flatMap_outline {view : Event → List α}
    (blind : ∀ event : Event, (event.outline?.map view).getD [] = view event) :
    (outline events).flatMap view = events.flatMap view := by
  induction events with
  | nil => rfl
  | cons event rest ih =>
      rw [List.flatMap_cons, ← blind event, ← ih, outline, List.filterMap_cons]
      cases event.outline? with
      | none => rfl
      | some event => exact List.flatMap_cons

end

/-- How often `pwd` printed a directory that did not arrive as a whole. -/
def lostDirectories : List Event → Nat
  | [] => 0
  | .dispatched .pwd :: .printed write :: rest =>
      (if write.complete then 0 else 1) + lostDirectories rest
  | _ :: rest => lostDirectories rest

/-- Where nothing is printed no directory is lost. -/
theorem lostDirectories_eq_zero {events : List Event}
    (silent : ∀ write, .printed write ∉ events) : lostDirectories events = 0 := by
  fun_induction lostDirectories events with
  | case1 => rfl
  | case2 write rest ih => exact absurd (by simp) (silent write)
  | case3 event rest other ih =>
      exact ih fun write member => silent write (List.mem_cons_of_mem _ member)

/-- The directories that are lost are counted piece by piece, if no piece begins in the middle of a
command. -/
theorem lostDirectories_append {later : List Event}
    (starts : ∀ write rest, later ≠ .printed write :: rest) (earlier : List Event) :
    lostDirectories (earlier ++ later) = lostDirectories earlier + lostDirectories later := by
  fun_induction lostDirectories earlier with
  | case1 => exact (Nat.zero_add _).symm
  | case2 write rest ih =>
      rw [List.cons_append, List.cons_append, lostDirectories, ih, Nat.add_assoc]
  | case3 event rest other ih =>
      rw [← ih, List.cons_append, lostDirectories]
      rintro write more rfl joined
      cases rest with
      | nil => exact starts write more joined
      | cons next rest =>
          obtain ⟨rfl, rfl⟩ := List.cons.inj joined
          exact other write rest rfl rfl

/-- Only `pwd` prints when it succeeds, and only `cd` when it fails. -/
theorem World.printed_cases (world : World) (settings : Settings) (tokens : List String) :
    let effect := world.perform settings tokens
    effect.printed = [] ∨
      effect.events = [.dispatched .pwd] ∧ effect.outcome = .ok .proceed ∨
      effect.events = [.dispatched .cd] ∧ ∃ error, effect.outcome = .error error := by
  cases tokens with
  | nil => exact .inl rfl
  | cons name arguments =>
      rw [perform]
      dsimp only
      cases Builtin.ofName? name with
      | none => exact .inl (printed_runProgram world settings name arguments)
      | some builtin =>
          dsimp only
          cases builtin with
          | exit => exact .inl rfl
          | path => exact .inl rfl
          | pwd =>
              unfold Builtin.perform printDirectory
              cases world.machine.workingDirectory with
              | ok path => exact .inr (.inl ⟨rfl, rfl⟩)
              | error cause => exact .inl rfl
          | cd =>
              unfold Builtin.perform changeDirectory
              cases arguments.head?.map bytesOf <|> world.home with
              | none => exact .inl rfl
              | some target =>
                  dsimp only
                  cases world.machine.changeDirectory target with
                  | ok machine => exact .inl rfl
                  | error cause => exact .inr (.inr ⟨rfl, _, rfl⟩)

/-- How a command ends whose output may be cut short, how it ends if it is not, and how many
directories it fails to show. -/
inductive CutShort : Except CommandError Flow → Except CommandError Flow → Nat → Prop where
  /-- Whatever the command prints arrives. -/
  | whole (result : Except CommandError Flow) : CutShort result result 0
  | directory : CutShort (.error (.io .closed)) (.ok .proceed) 1
  /-- The command has failed anyway. -/
  | failure (error : CommandError) : CutShort (.error (.io .closed)) (.error error) 0

namespace Session

/-- The same session with an output stream that takes everything. -/
def openOut (session : Session) : Session :=
  { session with out := {} }

/-- A command and the same command with an output stream that takes everything do the same, but for
how they end. -/
theorem perform_openOut (session : Session) (tokens : List String) :
    let limited := session.perform tokens
    let unlimited := session.openOut.perform tokens
    unlimited.session = limited.session.openOut ∧
      outline limited.events = outline unlimited.events ∧
      CutShort limited.result unlimited.result (lostDirectories limited.events) := by
  have same : session.openOut.world.perform session.openOut.settings tokens =
      session.world.perform session.settings tokens := rfl
  have silent : lostDirectories (session.world.perform session.settings tokens).events = 0 := by
    apply lostDirectories_eq_zero
    intro write member
    cases World.ofSession_perform _ _ _ _ member
  have whole : ∀ bytes, (session.openOut.out.write bytes).complete = true :=
    fun _ => beq_self_eq_true _
  have cases := session.world.printed_cases session.settings tokens
  dsimp only
  rw [perform, perform, same]
  generalize session.world.perform session.settings tokens = effect at silent cases
  dsimp only
  cases prints : effect.printed.isEmpty with
  | true =>
      refine ⟨rfl, rfl, ?_⟩
      change CutShort effect.outcome effect.outcome (lostDirectories effect.events)
      rw [silent]
      exact .whole _
  | false =>
      rw [if_neg Bool.false_ne_true, if_neg Bool.false_ne_true]
      refine ⟨rfl, ?_, ?_⟩
      · rw [outline_append, outline_append]
        apply congrArg (outline effect.events ++ ·)
        simp only [outline, List.filterMap, Event.outline?, Sink.offered_write]
      · rw [whole, if_pos rfl]
        dsimp only
        rcases cases with nothing | ⟨events, outcome⟩ | ⟨events, error, outcome⟩
        · rw [nothing] at prints
          cases prints
        · rw [events, outcome, List.singleton_append, lostDirectories]
          cases (session.out.write effect.printed).complete with
          | true => exact .whole _
          | false => exact .directory
        · have none : lostDirectories
              (effect.events ++ [.printed (session.out.write effect.printed)]) = 0 := by
            rw [events]
            rfl
          rw [none, outcome]
          cases (session.out.write effect.printed).complete with
          | true => exact .whole _
          | false => exact .failure error

end Session

/-- Two lists of events that tell the same, but that directories in the first were not shown and
reported instead. -/
structure SamePastOutput (limited unlimited : List Event) : Prop where
  outlines : outline limited = outline unlimited
  starts : ∀ write rest, limited ≠ .printed write :: rest
  diagnosed : ∃ count, shellWrote .error unlimited = diagnostics count ∧
    shellWrote .error limited = diagnostics (count + lostDirectories limited)

theorem SamePastOutput.nil : SamePastOutput [] [] where
  outlines := rfl
  starts _ _ empty := nomatch empty
  diagnosed := ⟨0, rfl, rfl⟩

/-- Parts that tell the same tell the same together, as no part begins in the middle of a
command. -/
theorem SamePastOutput.append {before before' after after' : List Event}
    (earlier : SamePastOutput before before') (later : SamePastOutput after after') :
    SamePastOutput (before ++ after) (before' ++ after') where
  outlines := by rw [outline_append, outline_append, earlier.outlines, later.outlines]
  starts write rest joined := by
    cases before with
    | nil => exact later.starts write rest joined
    | cons event before => exact earlier.starts write before (by cases joined; rfl)
  diagnosed := by
    obtain ⟨one, unlimited, limited⟩ := earlier.diagnosed
    obtain ⟨other, unlimited', limited'⟩ := later.diagnosed
    refine ⟨one + other, ?_, ?_⟩
    · rw [shellWrote_append, unlimited, unlimited', diagnostics_add]
    · rw [shellWrote_append, limited, limited', ← diagnostics_add,
        lostDirectories_append later.starts]
      congr 1
      omega

/-- A line that is executed, the same in both but for the reports after it. -/
theorem SamePastOutput.of_line (line : String) {limited unlimited reports reports' : List Event}
    (outlines : outline limited = outline unlimited)
    (silent : shellWrote .error limited = []) (silent' : shellWrote .error unlimited = [])
    (besides : outline reports = []) (besides' : outline reports' = [])
    (counted : ∃ count, shellWrote .error reports' = diagnostics count ∧
      shellWrote .error reports = diagnostics (count + lostDirectories limited)) :
    SamePastOutput (.executing line :: (limited ++ reports))
      (.executing line :: (unlimited ++ reports')) where
  outlines := by
    apply congrArg (Event.executing line :: ·)
    change outline (limited ++ reports) = outline (unlimited ++ reports')
    rw [outline_append, outline_append, outlines, besides, besides']
  starts write rest joined := nomatch joined
  diagnosed := by
    have silently : ∀ write, .printed write ∉ reports := by
      intro write member
      cases List.filterMap_eq_nil_iff.mp besides _ member
    have starts : ∀ write rest, reports ≠ .printed write :: rest := by
      rintro write rest rfl
      exact silently write List.mem_cons_self
    have lost : lostDirectories (.executing line :: (limited ++ reports)) =
        lostDirectories limited := by
      rw [lostDirectories, lostDirectories_append starts, lostDirectories_eq_zero silently,
        Nat.add_zero]
      rintro write rest executing
      cases executing
    obtain ⟨count, once, more⟩ := counted
    refine ⟨count, ?_, ?_⟩
    · rw [shellWrote_cons, shellWrote_append, silent', once]
      rfl
    · rw [shellWrote_cons, shellWrote_append, silent, more, lost]
      rfl

namespace Session

/-- Sessions whose error stream takes everything, which differ in their output stream: that of the
second takes everything too. -/
def DifferInOutput (limited unlimited : Session) : Prop :=
  limited.err.room = none ∧ unlimited = limited.openOut

/-- A report leaves no trace in an error stream that takes everything. -/
theorem session_report {session : Session} (accepts : session.err.room = none)
    (cause : ShellError) : (session.report cause).session = session := by
  obtain ⟨settings, world, out, room, flushes⟩ := session
  dsimp only at accepts
  subst accepts
  rfl

/-- What follows a command that ends like this: a flush, and a report if it failed. -/
def aftermath (session : Session) (flushes : Bool) (result : Except CommandError Flow) :
    Step Flow :=
  match result with
  | .ok flow => ⟨flow, session, [.flushed .output flushes]⟩
  | .error error =>
      let reported := session.report (.command error)
      ⟨.proceed, reported.session, .flushed .output flushes :: reported.events⟩

/-- A line that is not blank is its command and then what follows on how the command ended. -/
theorem executeLine_eq_aftermath {session : Session} {line : String}
    (command : tokenize line ≠ []) :
    session.executeLine line =
      let performed := session.perform (tokenize line)
      let after := performed.session.aftermath session.out.flushes performed.result
      { after with events := .executing line :: (performed.events ++ after.events) } := by
  unfold executeLine
  dsimp only
  cases tokens : tokenize line with
  | nil => exact absurd tokens command
  | cons name arguments =>
      dsimp only
      cases (session.perform (name :: arguments)).result with
      | ok flow => rfl
      | error error =>
          simp only [aftermath, List.cons_append, List.append_assoc, List.nil_append]

/-- What follows a command is flushes and reports only. -/
theorem outline_aftermath (session : Session) (flushes : Bool)
    (result : Except CommandError Flow) :
    outline (session.aftermath flushes result).events = [] := by
  cases result with
  | ok flow => rfl
  | error error => rfl

/-- What follows a command leaves the session as it is, where the error stream takes everything. -/
theorem session_aftermath {session : Session} (accepts : session.err.room = none)
    (flushes : Bool) (result : Except CommandError Flow) :
    (session.aftermath flushes result).session = session := by
  cases result with
  | ok flow => rfl
  | error error => exact session_report accepts (.command error)

/-- What follows a command is the same, but for one more report for each directory that was not
shown. -/
theorem aftermath_of_cutShort {limited unlimited : Session} (accepts : limited.err.room = none)
    (accepts' : unlimited.err.room = none) (flushes flushes' : Bool)
    {result result' : Except CommandError Flow} {lost : Nat} (cut : CutShort result result' lost) :
    let after := limited.aftermath flushes result
    let after' := unlimited.aftermath flushes' result'
    after.result = after'.result ∧
      ∃ count, shellWrote .error after'.events = diagnostics count ∧
        shellWrote .error after.events = diagnostics (count + lost) := by
  have reported : ∀ {session : Session} {flushes : Bool} {error : CommandError},
      session.err.room = none →
        shellWrote .error (session.aftermath flushes (.error error)).events = diagnostics 1 := by
    intro session flushes error accepts
    rw [diagnostics_one]
    exact shellWrote_error_report accepts _
  cases cut with
  | whole =>
      cases result with
      | ok flow => exact ⟨rfl, 0, rfl, rfl⟩
      | error error => exact ⟨rfl, 1, reported accepts', reported accepts⟩
  | directory => exact ⟨rfl, 0, rfl, reported accepts⟩
  | failure error => exact ⟨rfl, 1, reported accepts', reported accepts⟩

/-- A line is executed alike, whatever the output stream takes. -/
theorem line_openOut {session : Session} (accepts : session.err.room = none) (line : String) :
    (session.executeLine line).Resembles DifferInOutput SamePastOutput
      (session.openOut.executeLine line) := by
  by_cases command : tokenize line = []
  · have blank : ∀ session : Session,
        session.executeLine line = ⟨.proceed, session, [.executing line]⟩ := by
      intro session
      rw [executeLine, command]
    rw [blank, blank]
    have nothing : SamePastOutput (.executing line :: ([] ++ [])) (.executing line :: ([] ++ [])) :=
      .of_line line rfl rfl rfl rfl rfl ⟨0, rfl, rfl⟩
    exact ⟨rfl, ⟨accepts, rfl⟩, nothing⟩
  · obtain ⟨same, outlines, cut⟩ := session.perform_openOut (tokenize line)
    have accepts₁ : (session.perform (tokenize line)).session.err.room = none := by
      rw [err_perform]
      exact accepts
    have accepts₂ : (session.openOut.perform (tokenize line)).session.err.room = none := by
      rw [err_perform]
      exact accepts
    obtain ⟨result, counted⟩ := aftermath_of_cutShort accepts₁ accepts₂ session.out.flushes
      session.openOut.out.flushes cut
    rw [executeLine_eq_aftermath command, executeLine_eq_aftermath command]
    refine ⟨result, ?_, ?_⟩
    · dsimp only
      rw [session_aftermath accepts₁, session_aftermath accepts₂]
      exact ⟨accepts₁, same⟩
    · exact .of_line line outlines (shellWrote_error_perform _ _) (shellWrote_error_perform _ _)
        (outline_aftermath _ _ _) (outline_aftermath _ _ _) counted

/-- Line by line, report by report, such sessions stay such sessions and tell the same. -/
theorem openOut_companions : Companions DifferInOutput SamePastOutput where
  nothing := .nil
  append := .append
  read := by
    rintro limited _ ⟨accepts, rfl⟩ reading
    exact ⟨rfl, by rintro write rest ⟨⟩, 0, rfl, rfl⟩
  line := by
    rintro limited _ ⟨accepts, rfl⟩ line
    exact line_openOut accepts line
  overflow := by
    rintro limited _ ⟨accepts, rfl⟩
    have reported : ∀ {session : Session} (limit : Nat), session.err.room = none →
        shellWrote .error (session.report (.overflow limit)).events = diagnostics 1 := by
      intro session limit accepts
      rw [diagnostics_one]
      exact shellWrote_error_report accepts _
    have accepts' : limited.openOut.err.room = none := accepts
    refine ⟨rfl, ?_, rfl, by rintro write rest ⟨⟩, 1, reported _ accepts', reported _ accepts⟩
    rw [session_report accepts, session_report accepts']
    exact ⟨accepts, rfl⟩

end Session

end CommandShell
