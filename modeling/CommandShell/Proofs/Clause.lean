/-
Module: CommandShell.Proofs.Clause
Purpose: Which commands the redirection grammar accepts, and as what.
Trusted boundary: none
Main exports:
  Redirection.Rules.Accepts, Redirection.misplaced?_eq_none_iff, Redirection.Rules.parse_eq_ok_iff
-/
import CommandShell.Redirection

namespace CommandShell.Redirection

/-!
A command is accepted in two forms only: without any operator, or with one clause at its end.  What
is read of it determines it again.
-/

/-- The accepted commands, each with what is read of it. -/
inductive Rules.Accepts (rules : Rules) : List String → Parsed → Prop where
  | plain {tokens : List String} (free : operator ∉ tokens) :
      rules.Accepts tokens ⟨tokens, none⟩
  | clause {words : List String} {base : String} (nonempty : words ≠ []) (free : operator ∉ words)
      (named : base ≠ operator) (file : base.toList.getLast? ≠ some '/')
      (outputFits : (base ++ rules.outputSuffix).utf8ByteSize < rules.capacity)
      (errorFits : (base ++ rules.errorSuffix).utf8ByteSize < rules.capacity) :
      rules.Accepts (words ++ [operator, base])
        ⟨words, some ⟨base ++ rules.outputSuffix, base ++ rules.errorSuffix⟩⟩

/-- No operator is misplaced if each has exactly one token after it. -/
theorem misplaced?_eq_none_iff {position : Nat} {tokens : List String} :
    misplaced? position tokens = none ↔
      ∀ before after, tokens = before ++ operator :: after → after.length = 1 := by
  induction tokens generalizing position with
  | nil =>
      constructor
      · intro _ before after empty
        exact absurd empty.symm (List.append_ne_nil_of_right_ne_nil before (List.cons_ne_nil _ _))
      · intro _
        rfl
  | cons token rest ih =>
      rw [misplaced?]
      constructor
      · intro none before after split
        by_cases bad : token = operator ∧ rest.length ≠ 1
        · rw [if_pos bad] at none
          cases none
        · rw [if_neg bad] at none
          cases before with
          | nil =>
              obtain ⟨here, same⟩ := List.cons.inj split
              rw [← same]
              exact Classical.not_not.mp fun wrong => bad ⟨here, wrong⟩
          | cons first before =>
              exact ih.mp none before after (List.cons.inj split).2
      · intro placed
        have good : ¬ (token = operator ∧ rest.length ≠ 1) := by
          intro bad
          obtain ⟨rfl, wrong⟩ := bad
          exact wrong (placed [] rest rfl)
        rw [if_neg good]
        apply ih.mpr
        intro before after split
        exact placed (token :: before) after (by rw [split, List.cons_append])

/-- Without an operator there is none to be misplaced. -/
theorem misplaced?_of_not_mem {position : Nat} {tokens : List String}
    (free : operator ∉ tokens) : misplaced? position tokens = none := by
  apply misplaced?_eq_none_iff.mpr
  intro before after split
  exact absurd (split ▸ List.mem_append_right before List.mem_cons_self) free

/-- A command that ends in a clause has its only operator there. -/
theorem misplaced?_clause_iff {position : Nat} {words : List String} {base : String} :
    misplaced? position (words ++ [operator, base]) = none ↔
      operator ∉ words ∧ base ≠ operator := by
  rw [misplaced?_eq_none_iff]
  constructor
  · intro placed
    constructor
    · intro member
      obtain ⟨before, after, rfl⟩ := List.append_of_mem member
      have one := placed before (after ++ [operator, base]) (by simp)
      simp at one
    · rintro rfl
      have one := placed (words ++ [operator]) [] (by simp)
      cases one
  · intro parts before after split
    obtain ⟨free, named⟩ := parts
    rcases List.append_eq_append_iff.mp split with ⟨between, _, tail⟩ | ⟨between, head, tail⟩
    · cases between with
      | nil =>
          obtain ⟨_, rfl⟩ := List.cons.inj tail
          rfl
      | cons first between =>
          cases between with
          | nil => exact absurd (List.cons.inj (List.cons.inj tail).2).1 named
          | cons second between => simp at tail
    · cases between with
      | nil =>
          obtain ⟨_, rfl⟩ := List.cons.inj tail
          rfl
      | cons first between =>
          obtain ⟨rfl, _⟩ := List.cons.inj tail
          exact absurd (head ▸ List.mem_append_right before List.mem_cons_self) free

/-- A command with a single operator and nothing after it is misplaced, so a command in which every
operator is in its place ends in a clause or has none. -/
theorem not_mem_of_clause?_eq_none {position : Nat} {tokens : List String}
    (placed : misplaced? position tokens = none) (none : clause? tokens = none) :
    operator ∉ tokens := by
  intro member
  obtain ⟨before, after, split⟩ := List.append_of_mem member
  have one : after.length = 1 := misplaced?_eq_none_iff.mp placed before after split
  obtain ⟨base, rfl⟩ := List.length_eq_one_iff.mp one
  rw [clause?_eq_some_iff.mpr split] at none
  cases none

namespace Rules

variable {rules : Rules} {tokens : List String} {parsed : Parsed}

/-- A target is the base name with its suffix, where that is short enough. -/
theorem target_eq_ok_iff {base suffix path : String} :
    rules.target base suffix = .ok path ↔
      (base ++ suffix).utf8ByteSize < rules.capacity ∧ path = base ++ suffix := by
  unfold Rules.target
  by_cases fits : (base ++ suffix).utf8ByteSize < rules.capacity
  · rw [if_pos fits]
    constructor
    · intro made
      cases made
      exact ⟨fits, rfl⟩
    · intro parts
      obtain ⟨_, rfl⟩ := parts
      rfl
  · rw [if_neg fits]
    constructor
    · intro made
      cases made
    · intro parts
      exact absurd parts.1 fits

/-- There are two targets where each of them is short enough. -/
theorem targets_eq_ok_iff {base : String} {targets : Targets} :
    rules.targets base = .ok targets ↔
      (base ++ rules.outputSuffix).utf8ByteSize < rules.capacity ∧
        (base ++ rules.errorSuffix).utf8ByteSize < rules.capacity ∧
        targets = ⟨base ++ rules.outputSuffix, base ++ rules.errorSuffix⟩ := by
  unfold Rules.targets
  constructor
  · intro made
    split at made
    case h_1 => cases made
    case h_2 output outputMade =>
      split at made
      case h_1 => cases made
      case h_2 error errorMade =>
        cases made
        obtain ⟨outputFits, rfl⟩ := target_eq_ok_iff.mp outputMade
        obtain ⟨errorFits, rfl⟩ := target_eq_ok_iff.mp errorMade
        exact ⟨outputFits, errorFits, rfl⟩
  · intro parts
    obtain ⟨outputFits, errorFits, rfl⟩ := parts
    rw [target_eq_ok_iff.mpr ⟨outputFits, rfl⟩, target_eq_ok_iff.mpr ⟨errorFits, rfl⟩]

/-- Exactly the accepted commands are read, each as what it is accepted as. -/
theorem parse_eq_ok_iff : rules.parse tokens = .ok parsed ↔ rules.Accepts tokens parsed := by
  unfold Rules.parse
  constructor
  · intro read
    split at read
    case h_1 => cases read
    case h_2 placed =>
      split at read
      case h_1 none =>
        cases read
        exact .plain (not_mem_of_clause?_eq_none placed none)
      case h_2 => cases read
      case h_3 words base nonempty found =>
        obtain rfl := clause?_eq_some_iff.mp found
        obtain ⟨free, named⟩ := misplaced?_clause_iff.mp placed
        split at read
        case isTrue => cases read
        case isFalse file =>
          split at read
          case h_1 => cases read
          case h_2 targets made =>
            cases read
            obtain ⟨outputFits, errorFits, rfl⟩ := targets_eq_ok_iff.mp made
            refine .clause ?_ free named file outputFits errorFits
            exact fun empty => nonempty empty
  · intro accepted
    cases accepted with
    | plain free =>
        have none : clause? tokens = none := by
          rw [Option.eq_none_iff_forall_ne_some]
          rintro ⟨words, base⟩ found
          apply free
          rw [clause?_eq_some_iff.mp found]
          simp
        rw [misplaced?_of_not_mem free, none]
    | @clause words base nonempty free named file outputFits errorFits =>
        have found : clause? (words ++ [operator, base]) = some (words, base) :=
          clause?_eq_some_iff.mpr rfl
        have made : rules.targets base =
            .ok ⟨base ++ rules.outputSuffix, base ++ rules.errorSuffix⟩ :=
          targets_eq_ok_iff.mpr ⟨outputFits, errorFits, rfl⟩
        rw [misplaced?_clause_iff.mpr ⟨free, named⟩, found]
        cases words with
        | nil => exact absurd rfl nonempty
        | cons word words =>
            dsimp only
            rw [if_neg file, made]

end Rules
end CommandShell.Redirection
