/-
Module: CommandShell.Redirection
Purpose: The redirection clause at the end of a command: its grammar and the files it names.
Trusted boundary: none
Main exports:
  Targets, ClauseError, Redirection.Rules, Redirection.Parsed, Redirection.Rules.parse
-/
namespace CommandShell

/-- The files that receive the two output streams of a redirected program. -/
structure Targets where
  output : String
  error : String
deriving Repr, DecidableEq, Inhabited

/-- Why the tokens of a command are refused. -/
inductive ClauseError where
  /-- The operator at this position is not the last but one token. -/
  | misplaced (position : Nat)
  /-- There is a clause and nothing before it. -/
  | noCommand
  /-- The base name ends in a slash, so it names a directory. -/
  | badBase (base : String)
  /-- A target and the byte that ends it exceed the capacity. -/
  | tooLong (target : String) (capacity : Nat)
deriving Repr, DecidableEq, Inhabited

def ClauseError.message : ClauseError → String
  | .misplaced position =>
      s!"redirection operator at position {position} is not followed by exactly one target"
  | .noCommand => "redirection without a command"
  | .badBase base => s!"invalid redirection target: {base}"
  | .tooLong target capacity =>
      s!"redirection target {target} does not fit in {capacity} bytes"

namespace Redirection

/-!
A clause is the operator and one base name, at the end of the command.  The two targets are the
base name with one suffix for each stream.  An operator anywhere else refuses the whole command,
and the leftmost one is reported.
-/

/-- The token that starts a clause. -/
def operator : String := ">"

/-- How targets are named, and the room there is for a target and one byte that ends it. -/
structure Rules where
  outputSuffix : String := ".out"
  errorSuffix : String := ".err"
  capacity : Nat := 128
deriving Repr, DecidableEq, Inhabited

/-- A command without its clause, and the targets that the clause named. -/
structure Parsed where
  words : List String
  targets : Option Targets
deriving Repr, DecidableEq, Inhabited

/-- The position of the leftmost operator that does not have exactly one token after it, where
the first token is at `position`. -/
def misplaced? (position : Nat) : List String → Option Nat
  | [] => none
  | token :: rest =>
      if token = operator ∧ rest.length ≠ 1 then
        some position
      else
        misplaced? (position + 1) rest

/-- The words before a clause and the base name in it, if the tokens end in a clause. -/
def clause? (tokens : List String) : Option (List String × String) :=
  match tokens.reverse with
  | base :: token :: words => if token = operator then some (words.reverse, base) else none
  | _ => none

/-- The target with this suffix, if it leaves room for the byte that ends it. -/
def Rules.target (rules : Rules) (base suffix : String) : Except ClauseError String :=
  if (base ++ suffix).utf8ByteSize < rules.capacity then
    .ok (base ++ suffix)
  else
    .error (.tooLong (base ++ suffix) rules.capacity)

/-- The targets for a base name.  The one for standard output is checked first. -/
def Rules.targets (rules : Rules) (base : String) : Except ClauseError Targets :=
  match rules.target base rules.outputSuffix with
  | .error failure => .error failure
  | .ok output =>
      match rules.target base rules.errorSuffix with
      | .error failure => .error failure
      | .ok error => .ok ⟨output, error⟩

/-- Read the tokens of a command. -/
def Rules.parse (rules : Rules) (tokens : List String) : Except ClauseError Parsed :=
  match misplaced? 0 tokens with
  | some position => .error (.misplaced position)
  | none =>
      match clause? tokens with
      | none => .ok ⟨tokens, none⟩
      | some ([], _) => .error .noCommand
      | some (words, base) =>
          if base.toList.getLast? = some '/' then
            .error (.badBase base)
          else
            match rules.targets base with
            | .error failure => .error failure
            | .ok targets => .ok ⟨words, some targets⟩

/-- A clause is the operator and a base name at the very end, and the words are all that comes
before. -/
theorem clause?_eq_some_iff {tokens words : List String} {base : String} :
    clause? tokens = some (words, base) ↔ tokens = words ++ [operator, base] := by
  unfold clause?
  constructor
  · intro found
    split at found
    case h_1 last mark before reversed =>
      split at found
      case isTrue marked =>
        obtain ⟨rfl, rfl⟩ := Prod.mk.inj (Option.some.inj found)
        have forward := congrArg List.reverse reversed
        simpa [marked] using forward
      case isFalse => cases found
    case h_2 => cases found
  · rintro rfl
    simp

end Redirection
end CommandShell
