/-
Module: CommandShell.Proofs.Resemblance
Purpose: Two sessions side by side: what holds of both after each line holds of both after a run.
Trusted boundary: none
Main exports:
  Step.Resembles, Session.Companions, Session.Companions.answer, Session.Companions.sourceLines,
  Session.Twins, Session.Twins.run, Session.play, Session.Twins.play
-/
import CommandShell.CommandLine
import CommandShell.Proofs.Turn

namespace CommandShell

/-!
Two sessions that differ in some respect are given the same lines.  To compare them it is enough to
say which sessions differ in this respect only (`related`), which events they may differ in
(`same`), and that this is so for each line, each report and each prompt.  The loops add nothing to
it.
-/

/-- Two parts of sessions that come to the same result, in sessions that are related again, by
events that count as the same. -/
structure Step.Resembles {α : Type} (related : Session → Session → Prop)
    (same : List Event → List Event → Prop) (one other : Step α) : Prop where
  result : one.result = other.result
  session : related one.session other.session
  events : same one.events other.events

namespace Session

/-- Related sessions do the same with each line and with the news that one is too long. -/
structure Companions (related : Session → Session → Prop)
    (same : List Event → List Event → Prop) : Prop where
  nothing : same [] []
  append : ∀ {before before' after after'}, same before before' → same after after' →
    same (before ++ after) (before' ++ after')
  read : ∀ {one other}, related one other → ∀ reading,
    same [.read one.settings.shownPrompt reading] [.read other.settings.shownPrompt reading]
  line : ∀ {one other}, related one other → ∀ line,
    (one.executeLine line).Resembles related same (other.executeLine line)
  overflow : ∀ {one other}, related one other →
    (one.report (.overflow one.settings.lineLimit)).Resembles related same
      (other.report (.overflow other.settings.lineLimit))

/-- Related sessions do the same with each prompt too. -/
structure Twins (related : Session → Session → Prop)
    (same : List Event → List Event → Prop) : Prop extends Companions related same where
  prompt : ∀ {one other}, related one other → ∀ shownBySource,
    (one.showPrompt shownBySource).Resembles related same (other.showPrompt shownBySource)

variable {related : Session → Session → Prop} {same : List Event → List Event → Prop}
  {one other : Session}

namespace Companions

variable (companions : Companions related same)

include companions

/-- Answers that are the same are handled alike: a line is executed, a line too long is reported. -/
theorem answer (start : related one other) (reading : Reading) :
    (one.answer reading).Resembles related same (other.answer reading) := by
  cases reading with
  | line text =>
      have executed := companions.line start text
      unfold Session.answer
      dsimp only
      rw [executed.result]
      cases (other.executeLine text).result with
      | exit => exact ⟨rfl, executed.session, executed.events⟩
      | proceed => exact ⟨rfl, executed.session, executed.events⟩
  | overflow =>
      have reported := companions.overflow start
      exact ⟨rfl, reported.session, reported.events⟩
  | interrupted => exact ⟨rfl, start, companions.nothing⟩
  | finished => exact ⟨rfl, start, companions.nothing⟩
  | failed cause => exact ⟨rfl, start, companions.nothing⟩

/-- Startup lines are gone through alike, up to the same line that leaves. -/
theorem sourceLines (start : related one other) (lines : List String) :
    (one.sourceLines lines).Resembles related same (other.sourceLines lines) := by
  induction lines generalizing one other with
  | nil => exact ⟨rfl, start, companions.nothing⟩
  | cons line rest ih =>
      have executed := companions.line start line
      rw [Session.sourceLines, Session.sourceLines]
      dsimp only
      rw [executed.result]
      cases left : (other.executeLine line).result with
      | exit => exact ⟨executed.result, executed.session, executed.events⟩
      | proceed =>
          have later := ih executed.session
          exact ⟨later.result, later.session, companions.append executed.events later.events⟩

end Companions

namespace Twins

variable (twins : Twins related same)

include twins

/-- A turn is a prompt and an answer, and both are alike. -/
theorem turn (start : related one other) (shownBySource : Bool) (reading : Reading) :
    (one.turn shownBySource reading).Resembles related same
      (other.turn shownBySource reading) := by
  have prompted := twins.prompt start shownBySource
  unfold Session.turn
  dsimp only
  rw [prompted.result]
  cases (other.showPrompt shownBySource).result with
  | error error => exact ⟨rfl, prompted.session, prompted.events⟩
  | ok value =>
      have answered := twins.answer prompted.session reading
      have read := twins.append (twins.read start reading) answered.events
      exact ⟨answered.result, answered.session, twins.append prompted.events read⟩

/-- Related sessions come to the same over any source. -/
theorem run {σ : Type} [LineSource σ] (start : related one other) (source : σ) :
    (one.run source).Resembles related same (other.run source) := by
  revert other
  apply run_induction (motive := fun one source step =>
    ∀ other, related one other → step.Resembles related same (other.run source))
  · intro one source result turned ended other start
    have turns := twins.turn start (LineSource.showsPrompt source) (LineSource.next source).1
    have ended : (one.turn _ _).result = some result := ended
    rw [run_eq_turn other source]
    dsimp only
    rw [← turns.result, ended]
    exact ⟨rfl, turns.session, turns.events⟩
  · intro one source later turned more ih other start
    have turns := twins.turn start (LineSource.showsPrompt source) (LineSource.next source).1
    have rest := ih _ turns.session
    have more : (one.turn _ _).result = none := more
    rw [run_eq_turn other source]
    dsimp only
    rw [← turns.result, more]
    exact ⟨rest.result, rest.session, twins.append turns.events rest.events⟩

end Twins

/-- Execute lines that are known beforehand and then, unless one of them leaves the session, run
over a source. -/
def play {σ : Type} [LineSource σ] (session : Session) (lines : List String) (source : σ) :
    Step (Except ShellError Unit) :=
  let sourced := session.sourceLines lines
  match sourced.result with
  | .exit => { sourced with result := .ok () }
  | .proceed =>
      let ran := sourced.session.run source
      { ran with events := sourced.events ++ ran.events }

/-- Startup lines and then a source: the second part starts from sessions that are related still. -/
theorem Twins.play {σ : Type} [LineSource σ] (twins : Twins related same)
    (start : related one other) (lines : List String) (source : σ) :
    (one.play lines source).Resembles related same (other.play lines source) := by
  have sourced := twins.sourceLines start lines
  unfold Session.play
  dsimp only
  rw [sourced.result]
  cases (other.sourceLines lines).result with
  | exit => exact ⟨rfl, sourced.session, sourced.events⟩
  | proceed =>
      have ran := twins.run sourced.session source
      exact ⟨ran.result, ran.session, twins.append sourced.events ran.events⟩

end Session

/-- The shell as a command does just this, with standard input as the source. -/
theorem CommandLine.runSession_eq_play (session : Session) (script : Option (List String))
    (input : Supply) :
    runSession session script input =
      session.play (script.getD []) (Reader.mk session.settings.lineLimit input) := rfl

end CommandShell
