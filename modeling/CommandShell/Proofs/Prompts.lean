/-
Module: CommandShell.Proofs.Prompts
Purpose: Sessions whose prompts arrive.
Trusted boundary: none
Main exports:
  PromptsArrive, Session.result_showPrompt_of_turn, Session.turn_of_prompted, Step.Arrives,
  Session.turn_isInfix_run, Session.showPrompt_of_takes, Session.promptsArrive_run
-/
import CommandShell.Proofs.CommandCases
import CommandShell.Proofs.Turn

namespace CommandShell

/-- No prompt is lost: what is written of one is all of it, and no flush after one fails. -/
structure PromptsArrive (events : List Event) : Prop where
  written : ∀ write, .prompted write ∈ events → write.complete = true
  flushed : ∀ write, ¬ [.prompted write, .flushed .output false] <:+: events

/-- If no prompt is lost in a whole, none is lost in a part of it. -/
theorem PromptsArrive.of_infix {part events : List Event} (arrive : PromptsArrive events)
    (inside : part <:+: events) : PromptsArrive part where
  written write member := arrive.written write (inside.subset member)
  flushed write failed := arrive.flushed write (failed.trans inside)

namespace Session

variable {session : Session} {shownBySource : Bool}

/-- A prompt that is not lost does not fail. -/
theorem result_showPrompt_of_arrive
    (arrive : PromptsArrive (session.showPrompt shownBySource).events) :
    (session.showPrompt shownBySource).result = .ok () := by
  unfold showPrompt at arrive ⊢
  dsimp only at arrive ⊢
  split
  case isTrue => rfl
  case isFalse shows =>
    rw [if_neg shows] at arrive
    cases complete : (session.out.write (bytesOf session.settings.shownPrompt)).complete with
    | false =>
        rw [complete] at arrive
        have written := arrive.written _ (List.mem_singleton.mpr rfl)
        cases complete.symm.trans written
    | true =>
        rw [complete] at arrive
        cases flushes : session.out.flushes with
        | true => rfl
        | false =>
            rw [flushes] at arrive
            exact absurd List.infix_rfl (arrive.flushed _)

/-- A turn whose prompt arrives comes to the answer of the source. -/
theorem turn_of_prompted {reading : Reading}
    (prompted : (session.showPrompt shownBySource).result = .ok ()) :
    session.turn shownBySource reading =
      let prompted := session.showPrompt shownBySource
      let answered := prompted.session.answer reading
      ⟨answered.result, answered.session,
        prompted.events ++ .read session.settings.shownPrompt reading :: answered.events⟩ := by
  rw [turn, prompted]

/-- The prompt of a turn in which none is lost does not fail. -/
theorem result_showPrompt_of_turn {reading : Reading}
    (arrive : PromptsArrive (session.turn shownBySource reading).events) :
    (session.showPrompt shownBySource).result = .ok () := by
  apply result_showPrompt_of_arrive
  apply arrive.of_infix
  unfold turn
  dsimp only
  split
  · exact List.infix_rfl
  · exact (List.prefix_append _ _).isInfix

/-- A run begins with its first turn. -/
theorem turn_prefix_run {σ : Type} [LineSource σ] (session : Session) (source : σ) :
    (session.turn (LineSource.showsPrompt source) (LineSource.next source).1).events <+:
      (session.run source).events := by
  rw [run_eq_turn]
  dsimp only
  split
  · exact List.prefix_rfl
  · exact List.prefix_append _ _

/-- The first turn of a run is a part of it. -/
theorem turn_isInfix_run {σ : Type} [LineSource σ] (session : Session) (source : σ) :
    (session.turn (LineSource.showsPrompt source) (LineSource.next source).1).events <:+:
      (session.run source).events :=
  (session.turn_prefix_run source).isInfix

end Session

/-! ### Output streams that take everything -/

/-- The event loses nothing of a prompt and is no failed flush of the output stream. -/
def Event.arrives : Event → Bool
  | .prompted write => write.complete
  | .flushed .output succeeded => succeeded
  | _ => true

/-- Where each event by itself loses nothing of a prompt, no prompt is lost. -/
theorem PromptsArrive.of_arrives {events : List Event}
    (arrives : ∀ event ∈ events, event.arrives = true) : PromptsArrive events where
  written write member := arrives _ member
  flushed write failed := by
    have lost := arrives (.flushed .output false) (failed.subset (by simp))
    cases lost

/-- A part of a session that loses nothing of a prompt and leaves an output stream that takes
everything. -/
structure Step.Arrives {α : Type} (step : Step α) : Prop where
  out : step.session.out = {}
  events : ∀ event ∈ step.events, event.arrives = true

namespace Session

variable {session : Session}

/-- A command loses nothing on an output stream that takes everything, and leaves it so. -/
theorem arrives_perform (takes : session.out = {}) (tokens : List String) :
    (session.perform tokens).Arrives where
  out := by
    unfold perform
    dsimp only
    split
    · exact takes
    · dsimp only
      rw [takes]
      rfl
  events := by
    intro event member
    rcases session.ofSession_perform tokens event member with other | ⟨write, rfl⟩
    · cases event with
      | prompted => cases other
      | flushed => cases other
      | _ => rfl
    · rfl

/-- So does a line, whether it fails or not. -/
theorem arrives_executeLine (takes : session.out = {}) (line : String) :
    (session.executeLine line).Arrives := by
  have performed := arrives_perform takes (tokenize line)
  have flushed : ∀ event ∈ .executing line :: (session.perform (tokenize line)).events ++
      [.flushed .output session.out.flushes], event.arrives = true := by
    intro event member
    rw [takes] at member
    simp only [List.cons_append, List.mem_cons, List.mem_append, List.not_mem_nil,
      or_false] at member
    rcases member with rfl | member | rfl
    · rfl
    · exact performed.events event member
    · rfl
  have cases := session.executeLine_cases line
  generalize session.executeLine line = done at cases
  cases cases with
  | blank =>
      refine ⟨takes, ?_⟩
      intro event member
      obtain rfl := List.mem_singleton.mp member
      rfl
  | succeeded => exact ⟨performed.out, flushed⟩
  | failed =>
      refine ⟨performed.out, ?_⟩
      intro event member
      rcases List.mem_append.mp member with member | reported
      · exact flushed event member
      · simp only [report, List.mem_cons, List.not_mem_nil, or_false] at reported
        rcases reported with rfl | rfl <;> rfl

/-- What happens when a prompt is written to an output stream that takes everything. -/
def prompting (prompt : String) : List Event :=
  [.prompted ⟨bytesOf prompt, bytesOf prompt⟩, .flushed .output true]

/-- On an output stream that takes everything a prompt is written and flushed, unless there is none
to show. -/
theorem showPrompt_of_takes (takes : session.out = {}) (shownBySource : Bool) :
    session.showPrompt shownBySource =
      ⟨.ok (), session,
        if (bytesOf session.settings.shownPrompt).isEmpty || shownBySource then []
        else prompting session.settings.shownPrompt⟩ := by
  obtain ⟨settings, world, out, err⟩ := session
  dsimp only at takes
  subst takes
  have complete : (({} : Sink).write (bytesOf settings.shownPrompt)).complete = true :=
    beq_self_eq_true _
  unfold showPrompt
  dsimp only
  rw [complete]
  split <;> rfl

theorem arrives_showPrompt (takes : session.out = {}) (shownBySource : Bool) :
    (session.showPrompt shownBySource).Arrives := by
  have complete : ∀ bytes, (({} : Sink).write bytes).complete = true := by
    intro bytes
    exact beq_self_eq_true _
  unfold showPrompt
  dsimp only
  rw [takes, complete]
  split
  · refine ⟨takes, ?_⟩
    intro event member
    cases member
  · refine ⟨rfl, ?_⟩
    intro event member
    simp only [Bool.not_true, Bool.false_eq_true, if_false, List.mem_cons, List.not_mem_nil,
      or_false] at member
    rcases member with rfl | rfl
    · exact complete _
    · rfl

/-- Handling an answer loses nothing, whatever it is. -/
theorem arrives_answer (takes : session.out = {}) (reading : Reading) :
    (session.answer reading).Arrives := by
  cases reading with
  | line text =>
      have executed := arrives_executeLine takes text
      obtain ⟨sameSession, sameEvents⟩ := session.answer_line text
      constructor
      · rw [sameSession]
        exact executed.out
      · rw [sameEvents]
        exact executed.events
  | overflow =>
      refine ⟨takes, ?_⟩
      intro event member
      simp only [answer, report, List.mem_cons, List.not_mem_nil, or_false] at member
      rcases member with rfl | rfl <;> rfl
  | interrupted => exact ⟨takes, fun event none => nomatch none⟩
  | finished => exact ⟨takes, fun event none => nomatch none⟩
  | failed cause => exact ⟨takes, fun event none => nomatch none⟩

/-- No turn loses anything, so the next one starts with the same output stream. -/
theorem arrives_turn (takes : session.out = {}) (shownBySource : Bool) (reading : Reading) :
    (session.turn shownBySource reading).Arrives := by
  have prompted := arrives_showPrompt takes shownBySource
  have answered := arrives_answer prompted.out reading
  unfold turn
  dsimp only
  split
  · exact ⟨prompted.out, prompted.events⟩
  · refine ⟨answered.out, ?_⟩
    intro event member
    rcases List.mem_append.mp member with member | later
    · exact prompted.events event member
    · rcases List.mem_cons.mp later with rfl | member
      · rfl
      · exact answered.events event member

/-- A session whose output stream takes everything loses no prompt. -/
theorem promptsArrive_run {σ : Type} [LineSource σ] (takes : session.out = {}) (source : σ) :
    PromptsArrive (session.run source).events := by
  apply PromptsArrive.of_arrives
  revert takes
  apply run_induction (motive := fun session source step =>
    session.out = {} → ∀ event ∈ step.events, event.arrives = true)
  · intro session source result turned ended takes
    exact (arrives_turn takes _ _).events
  · intro session source later turned more ih takes event member
    have once := arrives_turn takes (LineSource.showsPrompt source) (LineSource.next source).1
    rcases List.mem_append.mp member with member | member
    · exact once.events event member
    · exact ih once.out event member

end Session
end CommandShell
