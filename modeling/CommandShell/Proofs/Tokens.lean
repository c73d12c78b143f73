/-
Module: CommandShell.Proofs.Tokens
Purpose: What the tokens of a line are made of.
Trusted boundary: none
Main exports:
  fields_append_cons, fields_cons_separator, isSeparator_eq_false_of_mem_tokenize
-/
import CommandShell.Token

namespace CommandShell

/-- A separator separates, wherever it is. -/
theorem fields_append_cons {separator : Char} (separates : isSeparator separator = true)
    (one other : List Char) : fields (one ++ separator :: other) = fields one ++ fields other := by
  simp [fields, List.splitOnP_append_cons one other separates]

@[simp] theorem fields_nil : fields [] = [] := by simp [fields]

/-- A separator in front adds no field. -/
theorem fields_cons_separator {separator : Char} (separates : isSeparator separator = true)
    (chars : List Char) : fields (separator :: chars) = fields chars := by
  simpa using fields_append_cons separates [] chars

/-- A separator at the end adds no field. -/
theorem fields_concat_separator {separator : Char} (separates : isSeparator separator = true)
    (chars : List Char) : fields (chars ++ [separator]) = fields chars := by
  simpa using fields_append_cons separates chars []

/-- Any other character is part of a field. -/
theorem fields_cons_ne_nil {char : Char} (kept : isSeparator char = false) (chars : List Char) :
    fields (char :: chars) ≠ [] := by
  obtain ⟨first, rest, split⟩ :=
    List.exists_cons_of_ne_nil (List.splitOnP_ne_nil isSeparator chars)
  simp [fields, List.splitOnP_cons_eq_if_modifyHead, kept, split]

/-- The tokens of a line are the fields of its characters. -/
theorem tokenize_ofList (chars : List Char) :
    tokenize (String.ofList chars) = (fields chars).map String.ofList := by
  simp [tokenize]

/-- A field between separators holds none. -/
theorem separates_eq_false_of_mem_splitOnP {α : Type} {separates : α → Bool} {items field : List α}
    (among : field ∈ items.splitOnP separates) : ∀ item ∈ field, separates item = false := by
  induction items generalizing field with
  | nil =>
      rw [List.splitOnP_nil, List.mem_singleton] at among
      subst among
      intro item member
      cases member
  | cons first items ih =>
      rw [List.splitOnP_cons_eq_if_modifyHead] at among
      split at among
      case isTrue =>
        rcases List.mem_cons.mp among with rfl | later
        · intro item member
          cases member
        · exact ih later
      case isFalse kept =>
        obtain ⟨head, tail, fields⟩ :=
          List.exists_cons_of_ne_nil (List.splitOnP_ne_nil separates items)
        rw [fields, List.modifyHead_cons] at among
        rw [fields] at ih
        rcases List.mem_cons.mp among with rfl | later
        · intro item member
          rcases List.mem_cons.mp member with rfl | member
          · exact Bool.eq_false_iff.mpr kept
          · exact ih List.mem_cons_self item member
        · exact ih (List.mem_cons_of_mem head later)

/-- No character of a token separates tokens. -/
theorem isSeparator_eq_false_of_mem_tokenize {line token : String}
    (among : token ∈ tokenize line) : ∀ char ∈ token.toList, isSeparator char = false := by
  simp only [tokenize, fields, List.mem_map, List.mem_filter] at among
  obtain ⟨field, ⟨between, _⟩, rfl⟩ := among
  rw [String.toList_ofList]
  exact separates_eq_false_of_mem_splitOnP between

end CommandShell
