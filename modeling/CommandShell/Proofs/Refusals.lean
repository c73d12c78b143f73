/-
Module: CommandShell.Proofs.Refusals
Purpose: What the redirection grammar reads of any list of tokens, or which of several faults in the
  list is the one that is told.
Trusted boundary: none
Main exports:
  Redirection.MisplacedAt, Redirection.misplaced?_eq_some_iff, Redirection.Rules.Fault,
  Redirection.Rules.FaultlessBefore, Redirection.Rules.FirstFault,
  Redirection.Rules.parse_eq_error_iff, Redirection.Rules.written, Redirection.Rules.parse_exact
-/
import CommandShell.Proofs.Clause

namespace CommandShell.Redirection

/-- There is an operator at this position, and it is not the last token but one. -/
def MisplacedAt (tokens : List String) (position : Nat) : Prop :=
  tokens[position]? = some operator ∧ position + 2 ≠ tokens.length

section
variable {token : String} {rest tokens : List String} {position : Nat}

/-- An operator at the front is misplaced unless exactly one token follows. -/
theorem misplacedAt_zero_iff :
    MisplacedAt (token :: rest) 0 ↔ token = operator ∧ rest.length ≠ 1 := by
  rw [MisplacedAt, List.getElem?_cons_zero, Option.some.injEq, List.length_cons]
  constructor
  · intro bad
    exact ⟨bad.1, fun one => bad.2 (by omega)⟩
  · intro bad
    exact ⟨bad.1, fun two => bad.2 (by omega)⟩

/-- Further on, what comes before does not matter. -/
theorem misplacedAt_succ_iff :
    MisplacedAt (token :: rest) (position + 1) ↔ MisplacedAt rest position := by
  rw [MisplacedAt, MisplacedAt, List.getElem?_cons_succ, List.length_cons]
  constructor
  · intro bad
    exact ⟨bad.1, fun same => bad.2 (by omega)⟩
  · intro bad
    exact ⟨bad.1, fun same => bad.2 (by omega)⟩

/-- The position that is reported is the smallest one with a misplaced operator. -/
theorem misplaced?_eq_some_iff {start reported : Nat} :
    misplaced? start tokens = some reported ↔
      ∃ position, reported = start + position ∧ MisplacedAt tokens position ∧
        ∀ earlier < position, ¬ MisplacedAt tokens earlier := by
  induction tokens generalizing start with
  | nil => simp [misplaced?, MisplacedAt]
  | cons token rest ih =>
      rw [misplaced?]
      split
      case isTrue bad =>
        have here : MisplacedAt (token :: rest) 0 := misplacedAt_zero_iff.mpr bad
        constructor
        · intro same
          cases same
          exact ⟨0, rfl, here, fun earlier before => absurd before (Nat.not_lt_zero earlier)⟩
        · rintro ⟨position, rfl, _, first⟩
          cases position with
          | zero => rfl
          | succ position => exact absurd here (first 0 (Nat.zero_lt_succ position))
      case isFalse good =>
        have absent : ¬ MisplacedAt (token :: rest) 0 := fun here =>
          good (misplacedAt_zero_iff.mp here)
        rw [ih]
        constructor
        · rintro ⟨position, rfl, later, first⟩
          refine ⟨position + 1, by omega, misplacedAt_succ_iff.mpr later, ?_⟩
          intro earlier before
          cases earlier with
          | zero => exact absent
          | succ earlier =>
              exact fun bad => first earlier (by omega) (misplacedAt_succ_iff.mp bad)
        · rintro ⟨position, rfl, later, first⟩
          cases position with
          | zero => exact absurd later absent
          | succ position =>
              refine ⟨position, by omega, misplacedAt_succ_iff.mp later, ?_⟩
              intro earlier before bad
              exact first (earlier + 1) (by omega) (misplacedAt_succ_iff.mpr bad)

/-- If any operator is misplaced, then one of them is the first. -/
theorem misplaced?_eq_none_iff_forall {start : Nat} :
    misplaced? start tokens = none ↔ ∀ position, ¬ MisplacedAt tokens position := by
  constructor
  · intro none position
    induction position using Nat.strongRecOn with
    | ind position ih =>
        intro bad
        -- None before it is misplaced, so this is the one that would be reported.
        have found : misplaced? start tokens = some (start + position) :=
          misplaced?_eq_some_iff.mpr ⟨position, rfl, bad, ih⟩
        cases none.symm.trans found
  · intro placed
    cases found : misplaced? start tokens with
    | none => rfl
    | some reported =>
        obtain ⟨position, _, bad, _⟩ := misplaced?_eq_some_iff.mp found
        exact absurd bad (placed position)

end

/-!
A list of tokens can be at fault in several ways at once.  Each fault is said here for itself, with
the place it has in the order in which faults are looked for; only the first one is told.
-/

namespace Rules

/-- The faults of a list of tokens, each with its place in the order. -/
inductive Fault (rules : Rules) (tokens : List String) : Nat → ClauseError → Prop where
  | misplaced {position : Nat} (here : MisplacedAt tokens position)
      (first : ∀ earlier < position, ¬ MisplacedAt tokens earlier) :
      rules.Fault tokens 0 (.misplaced position)
  | noCommand {base : String} (whole : tokens = [operator, base]) :
      rules.Fault tokens 1 .noCommand
  | badBase {words : List String} {base : String} (ends : tokens = words ++ [operator, base])
      (directory : base.toList.getLast? = some '/') :
      rules.Fault tokens 2 (.badBase base)
  | longOutput {words : List String} {base : String} (ends : tokens = words ++ [operator, base])
      (long : rules.capacity ≤ (base ++ rules.outputSuffix).utf8ByteSize) :
      rules.Fault tokens 3 (.tooLong (base ++ rules.outputSuffix) rules.capacity)
  | longError {words : List String} {base : String} (ends : tokens = words ++ [operator, base])
      (long : rules.capacity ≤ (base ++ rules.errorSuffix).utf8ByteSize) :
      rules.Fault tokens 4 (.tooLong (base ++ rules.errorSuffix) rules.capacity)

/-- None of the faults that are looked for before this place is there. -/
def FaultlessBefore (rules : Rules) (tokens : List String) (place : Nat) : Prop :=
  ∀ earlier < place, ∀ other, ¬ rules.Fault tokens earlier other

/-- The fault of a list of tokens that no other one goes before. -/
def FirstFault (rules : Rules) (tokens : List String) (error : ClauseError) : Prop :=
  ∃ place, rules.Fault tokens place error ∧ rules.FaultlessBefore tokens place

variable {rules : Rules} {tokens : List String} {place : Nat} {error other : ClauseError}

/-- A list of tokens ends in one clause at most. -/
theorem clause_inj {words words' : List String} {base base' : String}
    (same : words ++ [operator, base] = words' ++ [operator, base']) :
    words = words' ∧ base = base' := by
  have found := clause?_eq_some_iff.mpr same
  rw [clause?_eq_some_iff.mpr rfl] at found
  exact Prod.mk.inj (Option.some.inj found)

/-- Tokens that are nothing but a clause have no words before it. -/
theorem words_eq_nil {words : List String} {base base' : String}
    (same : words ++ [operator, base] = [operator, base']) : words = [] := by
  have clauses : words ++ [operator, base] = [] ++ [operator, base'] := same
  exact (clause_inj clauses).1

/-- At each place in the order there is one fault at most. -/
theorem Fault.unique (one : rules.Fault tokens place error)
    (two : rules.Fault tokens place other) : error = other := by
  cases one with
  | @misplaced position here first =>
      cases two with
      | @misplaced position' here' first' =>
          rcases Nat.lt_trichotomy position position' with before | rfl | after
          · exact absurd here (first' position before)
          · rfl
          · exact absurd here' (first position' after)
  | noCommand => cases two; rfl
  | badBase ends =>
      cases two with
      | badBase ends' =>
          obtain ⟨_, rfl⟩ := clause_inj (ends.symm.trans ends')
          rfl
  | longOutput ends =>
      cases two with
      | longOutput ends' =>
          obtain ⟨_, rfl⟩ := clause_inj (ends.symm.trans ends')
          rfl
  | longError ends =>
      cases two with
      | longError ends' =>
          obtain ⟨_, rfl⟩ := clause_inj (ends.symm.trans ends')
          rfl

/-- One fault at most is the first. -/
theorem FirstFault.unique (one : rules.FirstFault tokens error)
    (two : rules.FirstFault tokens other) : error = other := by
  obtain ⟨place, fault, first⟩ := one
  obtain ⟨place', fault', first'⟩ := two
  rcases Nat.lt_trichotomy place place' with before | rfl | after
  · exact absurd fault (first' place before error)
  · exact fault.unique fault'
  · exact absurd fault' (first place' after other)

/-- What the grammar accepts has no fault. -/
theorem Accepts.not_fault {parsed : Parsed} (accepted : rules.Accepts tokens parsed) :
    ¬ rules.Fault tokens place error := by
  intro fault
  cases accepted with
  | plain free =>
      have none : ∀ words base, tokens ≠ words ++ [operator, base] := by
        rintro words base rfl
        exact free (List.mem_append_right words List.mem_cons_self)
      cases fault with
      | misplaced here => exact free (List.mem_of_getElem? here.1)
      | noCommand whole => exact none [] _ whole
      | badBase ends => exact none _ _ ends
      | longOutput ends => exact none _ _ ends
      | longError ends => exact none _ _ ends
  | @clause words base nonempty free named file outputFits errorFits =>
      cases fault with
      | misplaced here =>
          have placed : misplaced? 0 (words ++ [operator, base]) = none :=
            misplaced?_clause_iff.mpr ⟨free, named⟩
          exact misplaced?_eq_none_iff_forall.mp placed _ here
      | noCommand whole => exact nonempty (words_eq_nil whole)
      | badBase ends directory =>
          obtain ⟨_, rfl⟩ := clause_inj ends
          exact file directory
      | longOutput ends long =>
          obtain ⟨_, rfl⟩ := clause_inj ends
          exact Nat.not_le_of_lt outputFits long
      | longError ends long =>
          obtain ⟨_, rfl⟩ := clause_inj ends
          exact Nat.not_le_of_lt errorFits long

/-- A target is refused for its length only, and the refusal names it. -/
theorem target_eq_error_iff {base suffix : String} :
    rules.target base suffix = .error error ↔
      rules.capacity ≤ (base ++ suffix).utf8ByteSize ∧
        error = .tooLong (base ++ suffix) rules.capacity := by
  unfold target
  split
  case isTrue fits =>
    constructor
    · intro none
      cases none
    · intro parts
      exact absurd parts.1 (Nat.not_le_of_lt fits)
  case isFalse long =>
    constructor
    · intro refused
      cases refused
      exact ⟨Nat.le_of_not_lt long, rfl⟩
    · intro parts
      rw [parts.2]

section
variable {words : List String} {base : String}

theorem faultlessBefore_zero : rules.FaultlessBefore tokens 0 :=
  fun earlier before => absurd before (Nat.not_lt_zero earlier)

/-- One place further, if none of the faults at this place is there. -/
theorem FaultlessBefore.succ (before : rules.FaultlessBefore tokens place)
    (none : ∀ other, ¬ rules.Fault tokens place other) :
    rules.FaultlessBefore tokens (place + 1) := by
  intro earlier bound
  rcases Nat.lt_succ_iff_lt_or_eq.mp bound with less | rfl
  · exact before earlier less
  · exact none

theorem faultlessBefore_one (placed : misplaced? 0 tokens = none) :
    rules.FaultlessBefore tokens 1 := by
  refine faultlessBefore_zero.succ ?_
  intro other fault
  cases fault with
  | misplaced here => exact misplaced?_eq_none_iff_forall.mp placed _ here

theorem faultlessBefore_two (placed : misplaced? 0 (words ++ [operator, base]) = none)
    (nonempty : words ≠ []) : rules.FaultlessBefore (words ++ [operator, base]) 2 := by
  refine (faultlessBefore_one placed).succ ?_
  intro other fault
  cases fault with
  | noCommand whole => exact nonempty (words_eq_nil whole)

theorem FaultlessBefore.three (before : rules.FaultlessBefore (words ++ [operator, base]) 2)
    (file : base.toList.getLast? ≠ some '/') :
    rules.FaultlessBefore (words ++ [operator, base]) 3 := by
  refine before.succ ?_
  intro other fault
  cases fault with
  | badBase ends directory =>
      obtain ⟨_, rfl⟩ := clause_inj ends
      exact file directory

theorem FaultlessBefore.four (before : rules.FaultlessBefore (words ++ [operator, base]) 3)
    (fits : (base ++ rules.outputSuffix).utf8ByteSize < rules.capacity) :
    rules.FaultlessBefore (words ++ [operator, base]) 4 := by
  refine before.succ ?_
  intro other fault
  cases fault with
  | longOutput ends long =>
      obtain ⟨_, rfl⟩ := clause_inj ends
      exact Nat.not_le_of_lt fits long

/-- What the two targets of a clause come to is all that is left to be at fault when the clause is
in its place, follows a command, and names a file. -/
theorem firstFault_of_targets (before : rules.FaultlessBefore (words ++ [operator, base]) 3)
    (refused : rules.targets base = .error error) :
    rules.FirstFault (words ++ [operator, base]) error := by
  unfold targets at refused
  split at refused
  case h_1 failure outputRefused =>
    cases refused
    obtain ⟨long, rfl⟩ := target_eq_error_iff.mp outputRefused
    exact ⟨3, .longOutput rfl long, before⟩
  case h_2 output outputMade =>
    split at refused
    case h_1 failure errorRefused =>
      cases refused
      obtain ⟨long, rfl⟩ := target_eq_error_iff.mp errorRefused
      exact ⟨4, .longError rfl long, before.four (target_eq_ok_iff.mp outputMade).1⟩
    case h_2 => cases refused

end

/-- A refusal tells the first fault. -/
theorem firstFault_of_parse (refused : rules.parse tokens = .error error) :
    rules.FirstFault tokens error := by
  unfold parse at refused
  split at refused
  case h_1 position found =>
    cases refused
    obtain ⟨offset, same, here, first⟩ := misplaced?_eq_some_iff.mp found
    obtain rfl : position = offset := by omega
    exact ⟨0, .misplaced here first, faultlessBefore_zero⟩
  case h_2 placed =>
    split at refused
    case h_1 => cases refused
    case h_2 base found =>
      cases refused
      exact ⟨1, .noCommand (clause?_eq_some_iff.mp found), faultlessBefore_one placed⟩
    case h_3 words base nonempty found =>
      obtain rfl := clause?_eq_some_iff.mp found
      have command : rules.FaultlessBefore (words ++ [operator, base]) 2 :=
        faultlessBefore_two placed fun empty => nonempty empty
      split at refused
      case isTrue directory =>
        cases refused
        exact ⟨2, .badBase rfl directory, command⟩
      case isFalse file =>
        split at refused
        case h_1 failure made =>
          cases refused
          exact firstFault_of_targets (command.three file) made
        case h_2 => cases refused

/-- A list of tokens is refused exactly if it has a fault, and the first fault is told. -/
theorem parse_eq_error_iff : rules.parse tokens = .error error ↔ rules.FirstFault tokens error := by
  constructor
  · exact firstFault_of_parse
  · intro first
    cases read : rules.parse tokens with
    | error told => rw [(firstFault_of_parse read).unique first]
    | ok parsed =>
        obtain ⟨place, fault, _⟩ := first
        exact absurd fault (parse_eq_ok_iff.mp read).not_fault

/-- The base name of a clause whose target for standard output is this one. -/
def baseOf (rules : Rules) (output : String) : String :=
  .ofList (output.toList.take (output.length - rules.outputSuffix.length))

/-- The tokens of a command, from what was read of them. -/
def written (rules : Rules) (parsed : Parsed) : List String :=
  match parsed.targets with
  | none => parsed.words
  | some targets => parsed.words ++ [operator, rules.baseOf targets.output]

/-- The base name can be read off the target for standard output. -/
theorem baseOf_append (rules : Rules) (base : String) :
    rules.baseOf (base ++ rules.outputSuffix) = base := by
  rw [baseOf, String.length_append, Nat.add_sub_cancel, String.toList_append,
    ← String.length_toList, List.take_left, String.ofList_toList]

/-- Writing a command again that was accepted gives its tokens back. -/
theorem written_of_accepts {parsed : Parsed} (accepted : rules.Accepts tokens parsed) :
    rules.written parsed = tokens := by
  cases accepted with
  | plain => rfl
  | clause => simp only [written, baseOf_append]

/-- Tokens are read without targets exactly if no token is the operator, and with targets exactly if
they end in a clause that follows a command, names a file and leaves room for both targets.  All
others are refused for their first fault.  What is read determines the tokens. -/
theorem parse_exact (rules : Rules) (tokens : List String) :
    (∀ words, rules.parse tokens = .ok ⟨words, none⟩ ↔ operator ∉ tokens ∧ words = tokens) ∧
    (∀ words targets, rules.parse tokens = .ok ⟨words, some targets⟩ ↔
      ∃ base, tokens = words ++ [operator, base] ∧ words ≠ [] ∧ operator ∉ words ∧
        base ≠ operator ∧ base.toList.getLast? ≠ some '/' ∧
        (base ++ rules.outputSuffix).utf8ByteSize < rules.capacity ∧
        (base ++ rules.errorSuffix).utf8ByteSize < rules.capacity ∧
        targets = ⟨base ++ rules.outputSuffix, base ++ rules.errorSuffix⟩) ∧
    (∀ error, rules.parse tokens = .error error ↔ rules.FirstFault tokens error) ∧
    (∀ parsed, rules.parse tokens = .ok parsed → rules.written parsed = tokens) := by
  refine ⟨?_, ?_, fun error => parse_eq_error_iff, ?_⟩
  · intro words
    rw [parse_eq_ok_iff]
    constructor
    · intro accepted
      cases accepted with
      | plain free => exact ⟨free, rfl⟩
    · rintro ⟨free, rfl⟩
      exact .plain free
  · intro words targets
    rw [parse_eq_ok_iff]
    constructor
    · intro accepted
      cases accepted with
      | clause nonempty free named file outputFits errorFits =>
          exact ⟨_, rfl, nonempty, free, named, file, outputFits, errorFits, rfl⟩
    · rintro ⟨base, rfl, nonempty, free, named, file, outputFits, errorFits, rfl⟩
      exact .clause nonempty free named file outputFits errorFits
  · intro parsed read
    exact written_of_accepts (parse_eq_ok_iff.mp read)

/-- Of two operators at the end the second is misplaced: the first has one token after it. -/
example : ({} : Rules).parse ["ls", ">", ">"] = .error (.misplaced 2) := rfl

end Rules
end CommandShell.Redirection
