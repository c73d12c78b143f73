/-
Module: CommandShell.Proofs.BaseNames
Purpose: What becomes of a clause whose base name names no file: it ends in a slash, or it is empty.
Trusted boundary: none
Main exports:
  Redirection.NamesNoFile, Redirection.Rules.TakesEmptyBase,
  Redirection.Rules.parse_namesNoFile_iff, Redirection.Rules.parse_badBase_iff,
  Redirection.Rules.nameless_refused_iff
-/
import CommandShell.Proofs.Refusals
import CommandShell.Token

namespace CommandShell.Redirection

/-- A base name that no file can have: one that ends in a slash names a directory, and an empty one
leaves nothing but the suffixes. -/
def NamesNoFile (base : String) : Prop :=
  base = "" ∨ base.toList.getLast? = some '/'

/-- The operator does not end in a slash, so it is no name of a directory. -/
theorem operator_ne_of_directory {base : String} (directory : base.toList.getLast? = some '/') :
    base ≠ operator := by
  rintro rfl
  exact absurd directory (by decide)

namespace Rules

/-- Apart from its base name nothing is wrong with a command that has a clause after these words: it
has a name, its only operator is that of the clause, and the suffixes alone fit. -/
structure TakesEmptyBase (rules : Rules) (words : List String) : Prop where
  nonempty : words ≠ []
  free : operator ∉ words
  outputFits : rules.outputSuffix.utf8ByteSize < rules.capacity
  errorFits : rules.errorSuffix.utf8ByteSize < rules.capacity

variable {rules : Rules} {words : List String} {base : String}

/-- A clause whose base name names no file is accepted only if the base name is empty, and then the
targets are the suffixes. -/
theorem parse_namesNoFile_iff (nameless : NamesNoFile base) {parsed : Parsed} :
    rules.parse (words ++ [operator, base]) = .ok parsed ↔
      base = "" ∧ rules.TakesEmptyBase words ∧
        parsed = ⟨words, some ⟨rules.outputSuffix, rules.errorSuffix⟩⟩ := by
  rw [parse_eq_ok_iff]
  constructor
  · intro accepted
    generalize whole : words ++ [operator, base] = tokens at accepted
    cases accepted with
    | plain free =>
        subst whole
        exact absurd (List.mem_append_right words List.mem_cons_self) free
    | clause nonempty free named file outputFits errorFits =>
        obtain ⟨rfl, rfl⟩ := clause_inj whole
        obtain rfl := nameless.resolve_right file
        rw [String.empty_append] at outputFits errorFits
        rw [String.empty_append, String.empty_append]
        exact ⟨rfl, ⟨nonempty, free, outputFits, errorFits⟩, rfl⟩
  · rintro ⟨rfl, takes, rfl⟩
    have named : "" ≠ operator := by decide
    have file : "".toList.getLast? ≠ some '/' := by decide
    have accepted := Accepts.clause takes.nonempty takes.free named file
      (by rw [String.empty_append]; exact takes.outputFits)
      (by rw [String.empty_append]; exact takes.errorFits)
    rwa [String.empty_append, String.empty_append] at accepted

/-- A base name that ends in a slash is what is told, unless the words before the clause are. -/
theorem parse_badBase_iff (directory : base.toList.getLast? = some '/') :
    rules.parse (words ++ [operator, base]) = .error (.badBase base) ↔
      words ≠ [] ∧ operator ∉ words := by
  have found : clause? (words ++ [operator, base]) = some (words, base) :=
    clause?_eq_some_iff.mpr rfl
  have named := operator_ne_of_directory directory
  rw [parse]
  cases placed : misplaced? 0 (words ++ [operator, base]) with
  | some position =>
      constructor
      · intro told
        cases told
      · intro fine
        rw [misplaced?_clause_iff.mpr ⟨fine.2, named⟩] at placed
        cases placed
  | none =>
      rw [found]
      cases words with
      | nil =>
          constructor
          · intro told
            cases told
          · intro fine
            exact absurd rfl fine.1
      | cons word words =>
          dsimp only
          rw [if_pos directory]
          have free := (misplaced?_clause_iff.mp placed).1
          exact ⟨fun _ => ⟨List.cons_ne_nil word words, free⟩, fun _ => rfl⟩

/-- A clause whose base name names no file is refused, but for one case: the base name is empty, and
nothing else is wrong.  Then it is accepted, and the targets are the suffixes alone.  A base name
that ends in a slash is always refused, and for itself unless the words before the clause are at
fault.  In the tokens of a line a base name is never empty. -/
theorem nameless_refused_iff (rules : Rules) (words : List String) (base : String)
    (nameless : NamesNoFile base) :
    let read := rules.parse (words ++ [operator, base])
    ((∃ error, read = .error error) ↔ ¬ (base = "" ∧ rules.TakesEmptyBase words)) ∧
    (base = "" → rules.TakesEmptyBase words →
      read = .ok ⟨words, some ⟨rules.outputSuffix, rules.errorSuffix⟩⟩) ∧
    (base.toList.getLast? = some '/' →
      (∃ error, read = .error error) ∧
      (read = .error (.badBase base) ↔ words ≠ [] ∧ operator ∉ words)) ∧
    (∀ line, tokenize line = words ++ [operator, base] → ∃ error, read = .error error) := by
  intro read
  have accepted (parsed : Parsed) : read = .ok parsed ↔
      base = "" ∧ rules.TakesEmptyBase words ∧
        parsed = ⟨words, some ⟨rules.outputSuffix, rules.errorSuffix⟩⟩ :=
    parse_namesNoFile_iff nameless
  have refused : (∃ error, read = .error error) ↔ ¬ (base = "" ∧ rules.TakesEmptyBase words) := by
    cases result : read with
    | error error =>
        refine ⟨fun _ fine => ?_, fun _ => ⟨error, rfl⟩⟩
        cases result.symm.trans ((accepted _).mpr ⟨fine.1, fine.2, rfl⟩)
    | ok parsed =>
        obtain ⟨empty, takes, _⟩ := (accepted parsed).mp result
        constructor
        · rintro ⟨error, none⟩
          cases none
        · intro bad
          exact absurd ⟨empty, takes⟩ bad
  refine ⟨refused, ?_, ?_, ?_⟩
  · intro empty takes
    exact (accepted _).mpr ⟨empty, takes, rfl⟩
  · intro directory
    refine ⟨refused.mpr ?_, parse_badBase_iff directory⟩
    rintro ⟨rfl, _⟩
    exact absurd directory (by decide)
  · intro line tokens
    refine refused.mpr ?_
    rintro ⟨empty, _⟩
    have among : base ∈ tokenize line := by
      rw [tokens]
      simp
    exact tokenize_ne_empty among empty

theorem nameless_refused_iff_directory :
    NamesNoFile "logs/" ∧ ({} : Rules).parse ["ls", ">", "logs/"] = .error (.badBase "logs/") := by
  have directory : "logs/".toList.getLast? = some '/' := by decide
  refine ⟨.inr directory, ?_⟩
  have told := (nameless_refused_iff {} ["ls"] "logs/" (.inr directory)).2.2.1 directory
  exact told.2.mpr ⟨by decide, by decide⟩

/-- A clause with an empty base name names no file, and is accepted. -/
theorem empty_base_accepted :
    NamesNoFile "" ∧
      ({} : Rules).parse (["x"] ++ [operator, ""]) = .ok ⟨["x"], some ⟨".out", ".err"⟩⟩ ∧
      ¬ ∀ (rules : Rules) (words : List String) (base : String), NamesNoFile base →
        ∃ error, rules.parse (words ++ [operator, base]) = .error error := by
  have accepted : ({} : Rules).parse (["x"] ++ [operator, ""]) =
      .ok ⟨["x"], some ⟨".out", ".err"⟩⟩ := rfl
  refine ⟨.inl rfl, accepted, ?_⟩
  intro refused
  obtain ⟨error, none⟩ := refused {} ["x"] "" (.inl rfl)
  cases accepted.symm.trans none

end Rules
end CommandShell.Redirection
