/-
Module: CommandShell.Proofs.Turn
Purpose: Sessions turn by turn, and sources that no session can tell apart.
Trusted boundary: none
Main exports:
  Session.session_showPrompt, Session.of_mem_showPrompt, Session.turn, Session.answer_line,
  Session.run_eq_turn, Session.run_induction, LineSource.Simulation,
  LineSource.Simulation.readings_eq, LineSource.Simulation.run_eq
-/
import CommandShell.Session

namespace CommandShell

namespace Session

/-- A prompt touches the output stream and nothing else. -/
theorem session_showPrompt (session : Session) (shownBySource : Bool) :
    ∃ out, (session.showPrompt shownBySource).session = { session with out } := by
  unfold showPrompt
  dsimp only
  split
  · exact ⟨session.out, rfl⟩
  · split <;> exact ⟨_, rfl⟩

/-- All that happens for a prompt is that it is written and flushed. -/
theorem of_mem_showPrompt {session : Session} {shownBySource : Bool} {event : Event}
    (member : event ∈ (session.showPrompt shownBySource).events) :
    (∃ write, event = .prompted write) ∨ ∃ succeeded, event = .flushed .output succeeded := by
  unfold showPrompt at member
  dsimp only at member
  split at member
  · cases member
  · split at member
    · exact .inl ⟨_, List.mem_singleton.mp member⟩
    · rcases List.mem_cons.mp member with prompted | flushed
      · exact .inl ⟨_, prompted⟩
      · exact .inr ⟨_, List.mem_singleton.mp flushed⟩

@[simp] theorem settings_showPrompt (session : Session) (shownBySource : Bool) :
    (session.showPrompt shownBySource).session.settings = session.settings := by
  obtain ⟨out, same⟩ := session.session_showPrompt shownBySource
  rw [same]

@[simp] theorem err_showPrompt (session : Session) (shownBySource : Bool) :
    (session.showPrompt shownBySource).session.err = session.err := by
  obtain ⟨out, same⟩ := session.session_showPrompt shownBySource
  rw [same]

end Session

/-!
A session over a source goes in turns: prompt, read, answer.  All that a run does is said by
`run_eq_turn`, and `run_induction` is the only induction over a source that the theorems about runs
need.
-/

namespace Session

/-- One turn of a session with what the source would answer.  If the prompt fails, the source is
not asked. -/
def turn (session : Session) (shownBySource : Bool) (reading : Reading) :
    Step (Option (Except ShellError Unit)) :=
  let prompted := session.showPrompt shownBySource
  match prompted.result with
  | .error error => ⟨some (.error error), prompted.session, prompted.events⟩
  | .ok () =>
      let answered := prompted.session.answer reading
      ⟨answered.result, answered.session,
        prompted.events ++ .read session.settings.shownPrompt reading :: answered.events⟩

/-- What handles a line is what executes it. -/
theorem answer_line (session : Session) (line : String) :
    (session.answer (.line line)).session = (session.executeLine line).session ∧
      (session.answer (.line line)).events = (session.executeLine line).events := by
  unfold answer
  dsimp only
  split <;> exact ⟨rfl, rfl⟩

/-- A turn that lets the session go on has read something to go on with. -/
theorem continues_of_turn {session : Session} {shownBySource : Bool} {reading : Reading}
    (goesOn : (session.turn shownBySource reading).result = none) : reading.continues = true := by
  unfold turn at goesOn
  dsimp only at goesOn
  split at goesOn
  · cases goesOn
  · exact continues_of_answer goesOn

variable {σ : Type} [LineSource σ]

/-- A run is a turn, and after a turn that ends nothing the run from there. -/
theorem run_eq_turn (session : Session) (source : σ) :
    session.run source =
      let turned := session.turn (LineSource.showsPrompt source) (LineSource.next source).1
      match turned.result with
      | some result => ⟨result, turned.session, turned.events⟩
      | none =>
          let later := turned.session.run (LineSource.next source).2
          { later with events := turned.events ++ later.events } := by
  rw [run]
  unfold turn
  dsimp only
  cases prompted : (session.showPrompt (LineSource.showsPrompt source)).result with
  | error error => rfl
  | ok value =>
      dsimp only
      split <;> rename_i answered <;> rw [answered]

/-- What holds of a run that a turn ends, and of a run whenever it holds from the next turn on,
holds of every run. -/
theorem run_induction {motive : Session → σ → Step (Except ShellError Unit) → Prop}
    (ends : ∀ session source result,
      let turned := session.turn (LineSource.showsPrompt source) (LineSource.next source).1
      turned.result = some result →
        motive session source ⟨result, turned.session, turned.events⟩)
    (goesOn : ∀ session source later,
      let turned := session.turn (LineSource.showsPrompt source) (LineSource.next source).1
      turned.result = none → motive turned.session (LineSource.next source).2 later →
        motive session source { later with events := turned.events ++ later.events })
    (session : Session) (source : σ) : motive session source (session.run source) := by
  induction bound : LineSource.size source using Nat.strongRecOn generalizing session source with
  | ind size ih =>
      rw [run_eq_turn]
      dsimp only
      split
      case h_1 result ended => exact ends session source result ended
      case h_2 more =>
        have smaller := LineSource.size_next source (continues_of_turn more)
        rw [bound] at smaller
        exact goesOn session source _ more (ih _ smaller _ _ rfl)

end Session

/-! ### Sources that cannot be told apart -/

namespace LineSource

variable {σ τ : Type} [LineSource σ] [LineSource τ]

/-- A relation between the states of two sources that keeps them in step: they give the same
answer, and what is left of them is related again. -/
structure Simulation (related : σ → τ → Prop) : Prop where
  reading : ∀ {one other}, related one other → (next one).1 = (next other).1
  rest : ∀ {one other}, related one other → related (next one).2 (next other).2

namespace Simulation

variable {related : σ → τ → Prop} {one : σ} {other : τ}

/-- Two sources that cannot be told apart answer every call in the same way. -/
theorem readings_eq (simulation : Simulation related) (start : related one other) (count : Nat) :
    readings count one = readings count other := by
  induction count generalizing one other with
  | zero => rfl
  | succ count ih =>
      rw [readings, readings, simulation.reading start, ih (simulation.rest start)]

/-- A session over either source is the same session, event by event. -/
theorem run_eq (simulation : Simulation related)
    (prompts : ∀ {one other}, related one other → showsPrompt one = showsPrompt other)
    (start : related one other) (session : Session) : session.run one = session.run other := by
  have same : ∀ other : τ, related one other → session.run one = session.run other := by
    apply Session.run_induction (motive := fun session one step =>
      ∀ other : τ, related one other → step = session.run other)
    · intro session one result turned ended other start
      rw [Session.run_eq_turn session other, ← prompts start, ← simulation.reading start]
      dsimp only
      rw [show (session.turn _ _).result = some result from ended]
    · intro session one later turned more ih other start
      rw [Session.run_eq_turn session other, ← prompts start, ← simulation.reading start]
      dsimp only
      rw [show (session.turn _ _).result = none from more]
      dsimp only
      rw [← ih _ (simulation.rest start)]
  exact same other start

end Simulation
end LineSource
end CommandShell
