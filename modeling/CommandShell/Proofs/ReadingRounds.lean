/-
Module: CommandShell.Proofs.ReadingRounds
Purpose: The two passes of a reader round by round: each of its calls is answered.
Trusted boundary: none
Main exports:
  readBounded_of_mem, readBounded_of_not_mem, Reader.Call, Reader.Call.step,
  Reader.Call.work_step_lt, Reader.Call.outcome_step, Reader.Answers, Reader.Answers.next_eq,
  Reader.exists_answers
-/
import CommandShell.Proofs.LineStream

namespace CommandShell

/-!
In each call of a reader there are two loops: the pass that takes a line, and the pass that throws
away the rest of one that is too long.  `readBounded` and `discardLine` say at once what the passes
come to, and end whatever a loop would do.  Here the passes go round by round, and a call that goes
on forever is never answered.  An interruption sends a pass round once more without a byte, so what
goes down in each round is the bytes together with the attempts to get more.
-/

section

variable {room : Nat} {buffered : Bytes} {refills : List Refill}

theorem readBounded_zero : readBounded 0 buffered refills = ⟨[], none, ⟨buffered, refills⟩⟩ := by
  unfold readBounded
  rfl

theorem readBounded_ended (roomy : 0 < room) :
    readBounded room [] [] = ⟨[], some .ended, ⟨[], []⟩⟩ := by
  unfold readBounded
  simp [Nat.ne_of_lt roomy]

/-- An empty buffer is filled with the next chunk. -/
theorem readBounded_chunk (roomy : 0 < room) (bytes : Bytes) :
    readBounded room [] (.chunk bytes :: refills) = readBounded room bytes refills := by
  rw [readBounded.eq_def room []]
  simp [Nat.ne_of_lt roomy, BoundedRead.after]

/-- After an interruption the pass tries once more. -/
theorem readBounded_interrupted (roomy : 0 < room) :
    readBounded room [] (.interrupted :: refills) = readBounded room [] refills := by
  rw [readBounded.eq_def room []]
  simp [Nat.ne_of_lt roomy, BoundedRead.after]

theorem readBounded_failed (roomy : 0 < room) (cause : IoError) :
    readBounded room [] (.failed cause :: refills) =
      ⟨[], some (.failed cause), ⟨[], refills⟩⟩ := by
  unfold readBounded
  simp [Nat.ne_of_lt roomy]

/-- Where a newline fits, the first pass stops at the first one. -/
theorem readBounded_of_mem (found : newline ∈ buffered.take room) :
    let line := (buffered.take room).takeWhile (· != newline)
    readBounded room buffered refills =
      ⟨line, some .newline, ⟨buffered.drop (line.length + 1), refills⟩⟩ := by
  obtain ⟨line, later, parts, single⟩ := List.eq_append_cons_of_mem found
  have before : (buffered.take room).takeWhile (· != newline) = line := by
    rw [parts, takeWhile_ne_newline single]
    simp
  have short : line.length < room := by
    have fits := List.length_take_le room buffered
    rw [parts, List.length_append, List.length_cons] at fits
    omega
  have whole : buffered = line ++ newline :: (later ++ buffered.drop room) := by
    rw [← List.cons_append, ← List.append_assoc, ← parts, List.take_append_drop]
  have left : buffered.drop line.length = newline :: (later ++ buffered.drop room) := by
    conv => lhs; rw [whole]
    exact List.drop_left
  have rest : buffered.drop (line.length + 1) = later ++ buffered.drop room := by
    rw [← List.tail_drop, left, List.tail_cons]
  unfold readBounded
  dsimp only
  rw [before, if_neg (Nat.ne_of_lt short), rest, left]

/-- Where no newline fits, the first pass goes on after the bytes that do. -/
theorem readBounded_of_not_mem (single : newline ∉ buffered.take room) :
    let fitting := buffered.take room
    readBounded room buffered refills =
      (readBounded (room - fitting.length) (buffered.drop fitting.length) refills).after
        fitting := by
  intro fitting
  have all : (buffered.take room).takeWhile (· != newline) = fitting :=
    takeWhile_ne_newline_self single
  have length : fitting.length = min room buffered.length := List.length_take
  by_cases full : fitting.length = room
  case pos =>
    rw [full, Nat.sub_self, readBounded_zero]
    unfold readBounded
    dsimp only
    rw [all, if_pos full, full]
    exact congrArg (BoundedRead.mk · none _) (List.append_nil fitting).symm
  case neg =>
    -- All the bytes at hand fit, so both sides come to the next attempt to get more.
    have none : buffered.drop fitting.length = [] := List.drop_eq_nil_of_le (by omega)
    have roomy : 0 < room - fitting.length := by omega
    rw [readBounded.eq_def room buffered]
    dsimp only
    rw [all, if_neg full, none]
    cases refills with
    | nil => simp [readBounded_ended roomy, BoundedRead.after]
    | cons attempt more =>
        cases attempt with
        | chunk bytes => simp [readBounded_chunk roomy]
        | interrupted => simp [readBounded_interrupted roomy]
        | failed cause => simp [readBounded_failed roomy, BoundedRead.after]

/-- The second pass stops at the first newline. -/
theorem discardLine_of_mem (found : newline ∈ buffered) :
    let line := buffered.takeWhile (· != newline)
    discardLine buffered refills = (.newline, ⟨buffered.drop (line.length + 1), refills⟩) := by
  obtain ⟨line, later, rfl, single⟩ := List.eq_append_cons_of_mem found
  have before : (line ++ newline :: later).takeWhile (· != newline) = line := by
    rw [takeWhile_ne_newline single]
    simp
  have left : (line ++ newline :: later).dropWhile (· != newline) = newline :: later := by
    rw [dropWhile_ne_newline single]
    exact List.dropWhile_cons_of_neg (by simp)
  unfold discardLine
  rw [before, left]
  simp

/-- The second pass goes on after bytes without a newline. -/
theorem discardLine_of_not_mem (single : newline ∉ buffered) :
    discardLine buffered refills = discardLine [] refills := by
  have none : buffered.dropWhile (· != newline) = [] := by
    have past := dropWhile_ne_newline single []
    rwa [List.append_nil] at past
  rw [discardLine.eq_def buffered, discardLine.eq_def [], none]
  rfl

end

/-! ### The two passes, round by round -/

namespace Reader

/-- A call of a reader in the middle of its work. -/
inductive Call where
  /-- The first pass, which has taken this much of a line. -/
  | taking (content : Bytes) (supply : Supply)
  /-- The second pass, after a line that has filled its room. -/
  | discarding (supply : Supply)
  | answered (reading : Reading) (supply : Supply)
deriving Repr, DecidableEq, Inhabited

namespace Call

/-- A round of a pass that has no bytes at hand: it tries to get some and goes on with those. -/
def refill (pass : Supply → Call) (atEnd : Reading) : List Refill → Call
  | [] => .answered atEnd ⟨[], []⟩
  | .chunk bytes :: more => pass ⟨bytes, more⟩
  | .interrupted :: more => pass ⟨[], more⟩
  | .failed cause :: more => .answered (.failed (.io cause)) ⟨[], more⟩

/-- One round of the pass that the call is in.  A pass looks at the bytes at hand, the first one at
no more than there is room for. -/
def step (limit : Nat) : Call → Call
  | .taking content supply =>
      let room := limit - content.length
      let fitting := supply.buffered.take room
      if room = 0 then
        if content.isEmpty then .answered .finished supply else .discarding supply
      else if supply.buffered.isEmpty then
        refill (.taking content) (if content.isEmpty then .finished else .line (shown content))
          supply.refills
      else if newline ∈ fitting then
        let line := fitting.takeWhile (· != newline)
        .answered (.line (shown (content ++ line)))
          { supply with buffered := supply.buffered.drop (line.length + 1) }
      else
        .taking (content ++ fitting)
          { supply with buffered := supply.buffered.drop fitting.length }
  | .discarding supply =>
      if supply.buffered.isEmpty then
        refill .discarding .finished supply.refills
      else if newline ∈ supply.buffered then
        let line := supply.buffered.takeWhile (· != newline)
        .answered .overflow { supply with buffered := supply.buffered.drop (line.length + 1) }
      else
        .discarding { supply with buffered := [] }
  | .answered reading supply => .answered reading supply

/-- The call after so many rounds. -/
def steps (limit : Nat) : Nat → Call → Call
  | 0, call => call
  | count + 1, call => steps limit count (call.step limit)

/-- What is left to do at most: every byte that may still be taken, every attempt to get more, and
the change from one pass to the other. -/
def work : Call → Nat
  | .taking _ supply => supply.size + supply.refills.length + 2
  | .discarding supply => supply.size + supply.refills.length + 1
  | .answered _ _ => 0

/-- An attempt to get more bytes is work that is done, whatever comes of it. -/
theorem work_refill_lt {pass : Supply → Call} {atEnd : Reading} {refills : List Refill}
    {phase : Nat} (positive : 0 < phase)
    (same : ∀ supply, (pass supply).work = supply.size + supply.refills.length + phase) :
    (refill pass atEnd refills).work < Supply.size ⟨[], refills⟩ + refills.length + phase := by
  cases refills with
  | nil =>
      simp only [refill, work]
      omega
  | cons attempt more =>
      cases attempt with
      | chunk bytes =>
          simp only [refill, same, Supply.size, Refill.size, List.foldr_cons, List.length_cons,
            List.length_nil]
          omega
      | interrupted =>
          simp only [refill, same, Supply.size, Refill.size, List.foldr_cons, List.length_cons,
            List.length_nil]
          omega
      | failed cause =>
          simp only [refill, work]
          omega

/-- Every round that does not come to the answer leaves less to do. -/
theorem work_step_lt {limit : Nat} {call : Call} (unanswered : 0 < call.work) :
    (call.step limit).work < call.work := by
  cases call with
  | answered reading supply => exact absurd unanswered (Nat.lt_irrefl 0)
  | taking content supply =>
      rcases supply with ⟨buffered, refills⟩
      simp only [step]
      split
      · split
        · exact unanswered
        · exact Nat.lt_succ_self _
      · split
        case isTrue none =>
          obtain rfl := List.isEmpty_iff.mp none
          exact work_refill_lt (Nat.zero_lt_two) fun supply => rfl
        case isFalse room some =>
          split
          · exact unanswered
          · -- There are bytes at hand and room for one of them.
            have nonempty : 0 < buffered.length :=
              List.length_pos_iff.mpr (mt List.isEmpty_iff.mpr some)
            simp only [work, Supply.size, List.length_drop, List.length_take]
            omega
  | discarding supply =>
      rcases supply with ⟨buffered, refills⟩
      simp only [step]
      split
      case isTrue none =>
        obtain rfl := List.isEmpty_iff.mp none
        exact work_refill_lt (Nat.zero_lt_one) fun supply => rfl
      case isFalse some =>
        split
        · exact unanswered
        · have nonempty : 0 < buffered.length :=
            List.length_pos_iff.mpr (mt List.isEmpty_iff.mpr some)
          simp only [work, Supply.size, List.length_nil]
          omega

/-!
The reader says what a call comes to in one go.  A round leaves that as it is, so a call that has
been answered was answered with what the reader says.
-/

/-- What the second pass comes to. -/
def thrownAway (supply : Supply) : Reading × Supply :=
  let discarded := discardLine supply.buffered supply.refills
  (match discarded.1 with
    | .newline => .overflow
    | .ended => .finished
    | .failed cause => .failed (.io cause),
    discarded.2)

/-- What the call comes to after a first pass. -/
def concluded (read : BoundedRead) : Reading × Supply :=
  match read.stop with
  | some .newline => (.line (shown read.content), read.rest)
  | some .ended =>
      (if read.content.isEmpty then .finished else .line (shown read.content), read.rest)
  | some (.failed cause) => (.failed (.io cause), read.rest)
  | none => if read.content.isEmpty then (.finished, read.rest) else thrownAway read.rest

/-- What the call comes to. -/
def outcome (limit : Nat) : Call → Reading × Supply
  | .taking content supply =>
      let read := readBounded (limit - content.length) supply.buffered supply.refills
      concluded (read.after content)
  | .discarding supply => thrownAway supply
  | .answered reading supply => (reading, supply)

/-- A call of a reader comes to what its first pass over nothing yet comes to. -/
theorem next_eq_outcome (reader : Reader) :
    let outcome := outcome reader.limit (.taking [] reader.supply)
    reader.next = (outcome.1, { reader with supply := outcome.2 }) := by
  rw [outcome, List.length_nil, Nat.sub_zero]
  unfold next concluded
  generalize readBounded reader.limit reader.supply.buffered reader.supply.refills = read
  rcases read with ⟨content, stop, rest⟩
  cases stop with
  | none =>
      cases content with
      | nil => rfl
      | cons byte content => rfl
  | some stop =>
      cases stop with
      | newline => rfl
      | ended => rfl
      | failed cause => rfl

/-- Whatever a round finds, the passes come to the same from there. -/
theorem outcome_step (limit : Nat) (call : Call) :
    (call.step limit).outcome limit = call.outcome limit := by
  cases call with
  | answered reading supply => rfl
  | taking content supply =>
      rcases supply with ⟨buffered, refills⟩
      simp only [step]
      split
      case isTrue full =>
        rw [outcome, full, readBounded_zero]
        cases content with
        | nil => rfl
        | cons byte content => simp [concluded, BoundedRead.after, outcome]
      case isFalse room =>
        have roomy : 0 < limit - content.length := Nat.pos_of_ne_zero room
        split
        case isTrue none =>
          obtain rfl := List.isEmpty_iff.mp none
          cases refills with
          | nil => simp [refill, outcome, readBounded_ended roomy, concluded, BoundedRead.after]
          | cons attempt more =>
              cases attempt with
              | chunk bytes => simp [refill, outcome, readBounded_chunk roomy]
              | interrupted => simp [refill, outcome, readBounded_interrupted roomy]
              | failed cause =>
                  simp [refill, outcome, readBounded_failed roomy, concluded, BoundedRead.after]
        case isFalse some =>
          split
          case isTrue found =>
            simp [outcome, readBounded_of_mem found, concluded, BoundedRead.after]
          case isFalse single =>
            simp [outcome, readBounded_of_not_mem single, BoundedRead.after, Nat.sub_sub]
  | discarding supply =>
      rcases supply with ⟨buffered, refills⟩
      simp only [step]
      split
      case isTrue none =>
        obtain rfl := List.isEmpty_iff.mp none
        cases refills with
        | nil => rfl
        | cons attempt more =>
            cases attempt with
            | chunk bytes => rfl
            | interrupted => rfl
            | failed cause => rfl
      case isFalse some =>
        split
        case isTrue found => simp [outcome, thrownAway, discardLine_of_mem found]
        case isFalse single => simp [outcome, thrownAway, discardLine_of_not_mem single]

/-- Any number of rounds leave what the call comes to. -/
theorem outcome_steps (limit count : Nat) (call : Call) :
    (call.steps limit count).outcome limit = call.outcome limit := by
  induction count generalizing call with
  | zero => rfl
  | succ count ih => rw [steps, ih, outcome_step]

/-- A call with nothing left to do has been answered. -/
theorem answered_of_work_eq_zero {call : Call} (done : call.work = 0) :
    ∃ reading rest, call = .answered reading rest := by
  cases call with
  | taking => cases done
  | discarding => cases done
  | answered reading rest => exact ⟨reading, rest, rfl⟩

/-- A call is answered after at most as many rounds as it has work. -/
theorem exists_steps_answered (limit : Nat) (call : Call) :
    ∃ rounds reading rest, rounds ≤ call.work ∧
      call.steps limit rounds = .answered reading rest := by
  induction bound : call.work using Nat.strongRecOn generalizing call with
  | ind work ih =>
      cases Nat.eq_zero_or_pos call.work with
      | inl done =>
          obtain ⟨reading, rest, rfl⟩ := answered_of_work_eq_zero done
          exact ⟨0, reading, rest, Nat.zero_le work, rfl⟩
      | inr unanswered =>
          have less : (call.step limit).work < work := bound ▸ work_step_lt unanswered
          obtain ⟨rounds, reading, rest, few, answered⟩ := ih _ less (call.step limit) rfl
          exact ⟨rounds + 1, reading, rest, Nat.lt_of_le_of_lt few less, answered⟩

end Call

/-- After so many rounds the call of a reader is answered, and a reader is left. -/
def Answers (reader : Reader) (rounds : Nat) (reading : Reading) (rest : Reader) : Prop :=
  rest.limit = reader.limit ∧
    Call.steps reader.limit rounds (.taking [] reader.supply) = .answered reading rest.supply

/-- The answer is the one that the reader says. -/
theorem Answers.next_eq {reader rest : Reader} {rounds : Nat} {reading : Reading}
    (answers : reader.Answers rounds reading rest) : reader.next = (reading, rest) := by
  obtain ⟨sameLimit, answered⟩ := answers
  have same := Call.outcome_steps reader.limit rounds (.taking [] reader.supply)
  rw [answered] at same
  rw [Call.next_eq_outcome, ← same, ← sameLimit]
  rfl

/-- Every call is answered. -/
theorem exists_answers (reader : Reader) :
    ∃ rounds, rounds ≤ reader.supply.size + reader.supply.refills.length + 2 ∧
      reader.Answers rounds reader.next.1 reader.next.2 := by
  obtain ⟨rounds, reading, rest, few, answered⟩ :=
    Call.exists_steps_answered reader.limit (.taking [] reader.supply)
  have answers : reader.Answers rounds reading { reader with supply := rest } := ⟨rfl, answered⟩
  rw [answers.next_eq]
  exact ⟨rounds, few, answers⟩

end Reader

end CommandShell
