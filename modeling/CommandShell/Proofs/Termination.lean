/-
Module: CommandShell.Proofs.Termination
Purpose: A session over a reader comes to an end, after so many calls of the reader.
Trusted boundary: none
Main exports:
  Supply.UsesUp, cut_spec, Reader.usesUp_next, Reader.allowance_next_lt, Session.Ends,
  Session.ends_run, Session.Ends.calls_le, Session.run_comes_to_end
-/
import CommandShell.Proofs.ExecutedLines
import CommandShell.Proofs.Prompts
import CommandShell.Proofs.ReadingRounds

namespace CommandShell

/-!
The loop of a session is a relation here that holds of nothing but an execution of finite length, in
which every call of the reader is answered.  What goes down in each turn that goes on is the
newlines and the end of the input.  A program is a function of how it is started, which is to say
that it ends.
-/

/-- The bytes of a line have been used up, at least one: up to and including a newline, or else
everything up to the end of the input. -/
def Supply.UsesUp (supply rest : Supply) : Prop :=
  (∃ content, newline ∉ content ∧ supply.stream = terminated content ++ rest.stream) ∨
    ∃ content, newline ∉ content ∧ content ≠ [] ∧ supply.stream = content.map .byte ∧
      rest.stream = []

/-- What a stop itself takes from a stream. -/
def Stop.items : Stop → List Item
  | .newline => [.byte CommandShell.newline]
  | .ended => []
  | .failed cause => [.failure cause]

/-- A cut takes nothing away but the line and what has stopped it. -/
theorem cut_spec (items : List Item) :
    newline ∉ (cut items).content ∧
      (cut items).content.map .byte ++ ((cut items).stop.items ++ (cut items).rest) = items := by
  induction items with
  | nil => exact ⟨List.not_mem_nil, rfl⟩
  | cons item items ih =>
      cases item with
      | failure cause => exact ⟨List.not_mem_nil, rfl⟩
      | byte value =>
          rw [cut]
          split
          case isTrue ends => exact ⟨List.not_mem_nil, by rw [ends]; rfl⟩
          case isFalse other =>
            obtain ⟨plain, whole⟩ := ih
            refine ⟨?_, congrArg (List.cons (Item.byte value)) whole⟩
            intro member
            rcases List.mem_cons.mp member with here | later
            · exact other here.symm
            · exact plain later

namespace Reader

/-- A call that is answered with a line, or with one that is too long, has used one up. -/
theorem usesUp_next {reader : Reader} (more : reader.next.1.continues = true) :
    reader.supply.UsesUp reader.next.2.supply := by
  cases Nat.eq_zero_or_pos reader.limit with
  | inl none =>
      rw [next_of_limit_eq_zero none] at more
      cases more
  | inr positive =>
      obtain ⟨answered, _, left⟩ := next_stream positive
      obtain ⟨plain, whole⟩ := cut_spec reader.supply.stream
      have ended : (cut reader.supply.stream).stop = .ended →
          (cut reader.supply.stream).rest = [] := rest_cut_of_ended
      rw [answered] at more
      rw [Supply.UsesUp, left]
      generalize cut reader.supply.stream = part at more plain whole ended
      rcases part with ⟨content, stop, rest⟩
      cases stop with
      | newline =>
          refine .inl ⟨content, plain, ?_⟩
          rw [← whole, terminated, List.map_append, List.append_assoc]
          rfl
      | ended =>
          obtain rfl : rest = [] := ended rfl
          refine .inr ⟨content, plain, ?_, ?_, rfl⟩
          · rintro rfl
            cases more
          · rw [← whole]
            exact List.append_nil _
      | failed cause => cases more

/-- No session over the reader asks it for more lines than this. -/
def allowance (reader : Reader) : Nat :=
  reader.supply.stream.count (.byte newline) + if reader.supply.stream.isEmpty then 1 else 2

theorem allowance_of_nil {reader : Reader} (none : reader.supply.stream = []) :
    reader.allowance = 1 := by
  rw [allowance, none]
  rfl

theorem allowance_of_ne_nil {reader : Reader} (some : reader.supply.stream ≠ []) :
    reader.allowance = reader.supply.stream.count (.byte newline) + 2 := by
  rw [allowance, if_neg (mt List.isEmpty_iff.mp some)]

/-- Every reader may be asked once. -/
theorem allowance_pos (reader : Reader) : 0 < reader.allowance := by
  cases empty : reader.supply.stream with
  | nil => exact Nat.lt_of_lt_of_eq Nat.zero_lt_one (allowance_of_nil empty).symm
  | cons item items =>
      rw [allowance_of_ne_nil (by simp [empty])]
      exact Nat.succ_pos _

/-- The allowance is at most two calls more than there are newlines. -/
theorem allowance_le (reader : Reader) :
    reader.allowance ≤ reader.supply.stream.count (.byte newline) + 2 := by
  unfold allowance
  split <;> omega

/-- Each line that is used up lowers the allowance: by its newline, or by the end of the input. -/
theorem allowance_next_lt {reader : Reader} (more : reader.next.1.continues = true) :
    reader.next.2.allowance < reader.allowance := by
  rcases usesUp_next more with ⟨content, _, whole⟩ | ⟨content, _, some, whole, none⟩
  · have nonempty : reader.supply.stream ≠ [] := by
      rw [whole]
      simp [terminated]
    have newlines : reader.next.2.supply.stream.count (.byte newline) + 1 ≤
        reader.supply.stream.count (.byte newline) := by
      rw [whole, List.count_append, terminated, List.map_append, List.count_append, Nat.add_comm]
      exact Nat.add_le_add_right (Nat.le_add_left 1 _) _
    calc reader.next.2.allowance
        ≤ reader.next.2.supply.stream.count (.byte newline) + 2 := allowance_le _
      _ < reader.supply.stream.count (.byte newline) + 2 := Nat.add_lt_add_right newlines 2
      _ = reader.allowance := (allowance_of_ne_nil nonempty).symm
  · have nonempty : reader.supply.stream ≠ [] := by
      rw [whole]
      simpa using some
    rw [allowance_of_nil none, allowance_of_ne_nil nonempty]
    exact Nat.lt_add_left _ Nat.one_lt_two

end Reader

/-! ### Sessions, call by call -/

namespace Session

/-- A session over a reader that comes to an end after so many calls of the reader: what the loop
does in each turn, up to one that does not go on.  A session that goes on forever is not in the
relation, nor is one with a call that is not answered. -/
inductive Ends : Session → Reader → Nat → Step (Except ShellError Unit) → Prop where
  /-- The prompt fails, and nothing is read. -/
  | unprompted {session : Session} {reader : Reader} {error : ShellError}
      (failed : (session.showPrompt false).result = .error error) :
      Ends session reader 0
        ⟨.error error, (session.showPrompt false).session, (session.showPrompt false).events⟩
  /-- The answer ends the session. -/
  | last {session : Session} {reader rest : Reader} {rounds : Nat} {reading : Reading}
      {result : Except ShellError Unit}
      (prompted : (session.showPrompt false).result = .ok ())
      (answers : reader.Answers rounds reading rest)
      (ended : (session.turn false reading).result = some result) :
      Ends session reader 1
        ⟨result, (session.turn false reading).session, (session.turn false reading).events⟩
  /-- The session goes on after the answer. -/
  | goesOn {session : Session} {reader rest : Reader} {rounds calls : Nat} {reading : Reading}
      {later : Step (Except ShellError Unit)}
      (prompted : (session.showPrompt false).result = .ok ())
      (answers : reader.Answers rounds reading rest)
      (more : (session.turn false reading).result = none)
      (ends : Ends (session.turn false reading).session rest calls later) :
      Ends session reader (calls + 1)
        { later with events := (session.turn false reading).events ++ later.events }

/-- A turn whose prompt arrives reads once. -/
theorem reads_turn {session : Session} {shownBySource : Bool} {reading : Reading}
    (prompted : (session.showPrompt shownBySource).result = .ok ()) :
    reads (session.turn shownBySource reading).events = [reading] := by
  rw [turn_of_prompted prompted]
  simp

/-- A turn whose prompt does not arrive is over with that. -/
theorem turn_of_unprompted {session : Session} {shownBySource : Bool} {reading : Reading}
    {error : ShellError} (failed : (session.showPrompt shownBySource).result = .error error) :
    session.turn shownBySource reading =
      let prompted := session.showPrompt shownBySource
      ⟨some (.error error), prompted.session, prompted.events⟩ := by
  rw [turn, failed]

/-- Every session over a reader comes to an end, with what the run says. -/
theorem ends_run (session : Session) (reader : Reader) :
    ∃ calls, session.Ends reader calls (session.run reader) := by
  apply run_induction (motive := fun session reader step => ∃ calls, session.Ends reader calls step)
  case ends =>
    intro session reader result turned ended
    obtain ⟨rounds, _, answers⟩ := reader.exists_answers
    cases prompted : (session.showPrompt false).result with
    | error error =>
        have stopped : turned = _ := turn_of_unprompted prompted
        rw [stopped] at ended ⊢
        obtain rfl := Option.some.inj ended
        exact ⟨0, .unprompted prompted⟩
    | ok value => exact ⟨1, .last prompted answers ended⟩
  case goesOn =>
    intro session reader later turned more ih
    obtain ⟨rounds, _, answers⟩ := reader.exists_answers
    obtain ⟨calls, ends⟩ := ih
    cases prompted : (session.showPrompt false).result with
    | error error =>
        have stopped : turned = _ := turn_of_unprompted prompted
        rw [stopped] at more
        cases more
    | ok value => exact ⟨calls + 1, .goesOn prompted answers more ends⟩

namespace Ends

variable {session : Session} {reader : Reader} {calls : Nat}
  {step : Step (Except ShellError Unit)}

/-- A session reads once for each call. -/
theorem reads_length (ends : session.Ends reader calls step) :
    (reads step.events).length = calls := by
  induction ends with
  | unprompted failed => simp
  | last prompted answers ended => simp [reads_turn prompted]
  | goesOn prompted answers more ends ih => simp [reads_turn prompted, ih]

/-- No session makes more calls than the reader allows, by induction on the session. -/
theorem calls_le (ends : session.Ends reader calls step) : calls ≤ reader.allowance := by
  induction ends with
  | unprompted failed => exact Nat.zero_le _
  | last prompted answers ended => exact Reader.allowance_pos _
  | @goesOn session reader rest rounds calls reading later prompted answers more ends ih =>
      have less : reader.next.2.allowance < reader.allowance := by
        apply Reader.allowance_next_lt
        rw [answers.next_eq]
        exact continues_of_turn more
      rw [answers.next_eq] at less
      exact Nat.lt_of_le_of_lt ih less

end Ends

/-- A session over a reader comes to an end, provided that the programs it starts do.  However the
bytes come and whatever the limit, each call of the reader is answered after finitely many rounds of
its two passes.  A call that is answered with a line, or with one that is too long, has used up at
least a byte, up to and including a newline unless the input has ended.  So the session asks for at
most two lines more than the input has newlines. -/
theorem run_comes_to_end (session : Session) (reader : Reader) :
    (∃ rounds, rounds ≤ reader.supply.size + reader.supply.refills.length + 2 ∧
      reader.Answers rounds reader.next.1 reader.next.2) ∧
    (∀ rounds reading rest, reader.Answers rounds reading rest →
      (reading = .overflow ∨ ∃ text, reading = .line text) →
      reader.supply.UsesUp rest.supply) ∧
    ∃ calls, session.Ends reader calls (session.run reader) ∧
      (reads (session.run reader).events).length = calls ∧
      calls ≤ reader.supply.stream.count (.byte newline) + 2 := by
  refine ⟨reader.exists_answers, ?_, ?_⟩
  · intro rounds reading rest answers delivered
    have more : reader.next.1.continues = true := by
      rw [answers.next_eq]
      rcases delivered with rfl | ⟨text, rfl⟩
      · rfl
      · rfl
    have used := Reader.usesUp_next more
    rwa [answers.next_eq] at used
  · obtain ⟨calls, ends⟩ := session.ends_run reader
    exact ⟨calls, ends, ends.reads_length, Nat.le_trans ends.calls_le reader.allowance_le⟩

/-- A line that fits with its newline, one that fills the room at the end of a chunk and is thrown
away past an interruption, and one that the end of the input ends: as many calls as there may be. -/
theorem run_comes_to_end_interrupted :
    let reader : Reader := ⟨3, ⟨[], [.interrupted, .chunk (bytesOf "ab\nabc"), .interrupted,
      .chunk (bytesOf "d\nx")]⟩⟩
    let session : Session := {}
    (reads (session.run reader).events =
        [.line "ab", .overflow, .line "x", .finished]) ∧
      (∃ rounds, reader.Answers rounds (.line "ab")
        ⟨3, ⟨bytesOf "abc", [.interrupted, .chunk (bytesOf "d\nx")]⟩⟩) ∧
      reader.supply.UsesUp ⟨bytesOf "abc", [.interrupted, .chunk (bytesOf "d\nx")]⟩ ∧
      session.Ends reader 4 (session.run reader) := by
  intro reader session
  have read : reads (session.run reader).events =
      [.line "ab", .overflow, .line "x", .finished] := by decide +kernel
  obtain ⟨_, used, calls, ends, counted, _⟩ := run_comes_to_end session reader
  have answered : reader.Answers 3 (.line "ab")
      ⟨3, ⟨bytesOf "abc", [.interrupted, .chunk (bytesOf "d\nx")]⟩⟩ := by
    exact ⟨rfl, by decide⟩
  refine ⟨read, ⟨3, answered⟩, used _ _ _ answered (.inr ⟨"ab", rfl⟩), ?_⟩
  rw [read] at counted
  subst counted
  exact ends

end Session
end CommandShell
