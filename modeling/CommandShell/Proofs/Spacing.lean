/-
Module: CommandShell.Proofs.Spacing
Purpose: A line is its tokens with spaces and tabs around them, and there is one way only to see it
  so.
Trusted boundary: none
Main exports:
  isSeparator_iff, IsGap, IsToken, tokenize_token, tokenize_append_gap, Spacing, Spacing.line,
  Spacing.tokens, Spacing.tokenize_line, exists_spacing, tokenize_eq_iff_spacing
-/
import CommandShell.Proofs.Tokens

namespace CommandShell

/-- Tokens are separated by spaces and tabs. -/
theorem isSeparator_iff {char : Char} : isSeparator char = true ↔ char = ' ' ∨ char = '\t' := by
  simp [isSeparator]

/-- Text of spaces and tabs only, or of nothing. -/
def IsGap (text : String) : Prop :=
  ∀ char ∈ text.toList, char = ' ' ∨ char = '\t'

/-- Text of other characters only, and of at least one. -/
def IsToken (text : String) : Prop :=
  text ≠ "" ∧ ∀ char ∈ text.toList, char ≠ ' ' ∧ char ≠ '\t'

section
variable {char : Char} {text gap : String}

theorem IsGap.isSeparator (blank : IsGap gap) : ∀ char ∈ gap.toList, isSeparator char = true :=
  fun char member => isSeparator_iff.mpr (blank char member)

theorem IsToken.isSeparator (token : IsToken text) :
    ∀ char ∈ text.toList, isSeparator char = false := by
  intro char member
  rw [Bool.eq_false_iff, Ne, isSeparator_iff, not_or]
  exact token.2 char member

theorem isGap_empty : IsGap "" := by
  intro char member
  cases member

theorem isGap_singleton_append (separates : isSeparator char = true) (blank : IsGap text) :
    IsGap (String.singleton char ++ text) := by
  simpa [IsGap, ← isSeparator_iff, separates] using blank.isSeparator

/-- A character that does not separate makes a token longer, or starts one. -/
theorem isToken_singleton_append (kept : isSeparator char = false)
    (token : text = "" ∨ IsToken text) : IsToken (String.singleton char ++ text) := by
  have clean : ∀ other ∈ text.toList, isSeparator other = false := by
    rcases token with rfl | token
    · intro other member
      cases member
    · exact token.isSeparator
  have apart (other : Char) : other ≠ ' ' ∧ other ≠ '\t' ↔ isSeparator other = false := by
    simp [isSeparator]
  constructor
  · intro empty
    simpa using congrArg String.toList empty
  · intro other member
    rw [String.toList_append, String.toList_singleton] at member
    rw [apart]
    rcases List.mem_cons.mp member with rfl | later
    · exact kept
    · exact clean other later

/-- A gap in front adds no field. -/
theorem fields_gap_append {gap : List Char} (blank : ∀ char ∈ gap, isSeparator char = true)
    (rest : List Char) : fields (gap ++ rest) = fields rest := by
  induction gap with
  | nil => rfl
  | cons char gap ih =>
      rw [List.cons_append, fields_cons_separator (blank char List.mem_cons_self)]
      exact ih fun other member => blank other (List.mem_cons_of_mem char member)

/-- What is on one side of a gap does not matter to the tokens on the other. -/
theorem tokenize_append_gap (blank : IsGap gap) (some : gap ≠ "") (one other : String) :
    tokenize (one ++ gap ++ other) = tokenize one ++ tokenize other := by
  have separates := blank.isSeparator
  obtain ⟨char, rest, first⟩ : ∃ char rest, gap.toList = char :: rest :=
    List.exists_cons_of_ne_nil (by simpa using some)
  rw [first] at separates
  obtain ⟨here, later⟩ := List.forall_mem_cons.mp separates
  rw [tokenize, String.toList_append, String.toList_append, first, List.append_assoc,
    List.cons_append, fields_append_cons here, fields_gap_append later, List.map_append]
  rfl

/-- A gap in front adds no token. -/
theorem tokenize_gap_append (blank : IsGap gap) (rest : String) :
    tokenize (gap ++ rest) = tokenize rest := by
  rw [tokenize, String.toList_append, fields_gap_append blank.isSeparator]
  rfl

/-- A token by itself is the one token of its line. -/
theorem tokenize_token (token : IsToken text) : tokenize text = [text] := by
  have nonempty : text.toList ≠ [] := by simpa using token.1
  rw [tokenize, fields, List.splitOnP_eq_singleton token.isSeparator]
  simp [nonempty]

end

/-! ### Spacings -/

/-- A line as its tokens and the gaps around them: the gap before the first token, and then each
token with the gap after it.  Only the first gap and the last one may be empty. -/
structure Spacing where
  before : String
  pieces : List (String × String)
  blank : IsGap before
  token : ∀ piece ∈ pieces, IsToken piece.1
  gap : ∀ piece ∈ pieces, IsGap piece.2
  apart : ∀ piece ∈ pieces.dropLast, piece.2 ≠ ""

/-- The text of pairs, such as tokens with their gaps. -/
def joined (pieces : List (String × String)) : String :=
  String.join (pieces.map fun piece => piece.1 ++ piece.2)

namespace Spacing

def line (spacing : Spacing) : String :=
  spacing.before ++ joined spacing.pieces

def tokens (spacing : Spacing) : List String :=
  spacing.pieces.map Prod.fst

end Spacing

theorem joined_nil : joined [] = "" := rfl

theorem joined_cons (one other : String) (pieces : List (String × String)) :
    joined ((one, other) :: pieces) = one ++ other ++ joined pieces := by
  rw [joined, List.map_cons, String.join_cons, ← joined]

theorem forall_mem_dropLast_cons {first : String × String} {pieces : List (String × String)} :
    (∀ piece ∈ (first :: pieces).dropLast, piece.2 ≠ "") ↔
      (pieces ≠ [] → first.2 ≠ "") ∧ ∀ piece ∈ pieces.dropLast, piece.2 ≠ "" := by
  cases pieces with
  | nil => simp
  | cons second pieces => simp

/-- Pieces that are kept apart by their gaps are cut where they were put together. -/
theorem tokenize_joined {pieces : List (String × String)}
    (token : ∀ piece ∈ pieces, IsToken piece.1) (gap : ∀ piece ∈ pieces, IsGap piece.2)
    (apart : ∀ piece ∈ pieces.dropLast, piece.2 ≠ "") :
    tokenize (joined pieces) = pieces.map Prod.fst := by
  induction pieces with
  | nil => rfl
  | cons piece pieces ih =>
      obtain ⟨text, blanks⟩ := piece
      obtain ⟨here, token⟩ := List.forall_mem_cons.mp token
      obtain ⟨blank, gap⟩ := List.forall_mem_cons.mp gap
      obtain ⟨between, apart⟩ := forall_mem_dropLast_cons.mp apart
      have later := ih token gap apart
      have one := tokenize_token here
      rw [joined_cons, List.map_cons, ← later]
      by_cases none : blanks = ""
      · -- Without a gap after it the token is the last one.
        obtain rfl : pieces = [] := Classical.not_not.mp fun more => between more none
        rw [none, joined_nil, String.append_empty, String.append_empty, one]
        rfl
      · rw [tokenize_append_gap blank none, one]
        rfl

namespace Spacing

/-- The tokens of a spaced line are those that it was made of. -/
theorem tokenize_line (spacing : Spacing) : tokenize spacing.line = spacing.tokens := by
  rw [line, tokenize_gap_append spacing.blank]
  exact tokenize_joined spacing.token spacing.gap spacing.apart

/-- A separator in front makes the first gap longer. -/
theorem exists_cons_of_separator {char : Char} (separates : isSeparator char = true)
    (spacing : Spacing) :
    ∃ longer : Spacing, longer.line = String.singleton char ++ spacing.line :=
  ⟨{ spacing with
      before := String.singleton char ++ spacing.before
      blank := isGap_singleton_append separates spacing.blank },
    String.append_assoc⟩

/-- Another character in front belongs to the first token, if no gap is before it. -/
theorem exists_cons_of_token {char : Char} (kept : isSeparator char = false) (spacing : Spacing) :
    ∃ longer : Spacing, longer.line = String.singleton char ++ spacing.line := by
  obtain ⟨before, pieces, blank, token, gap, apart⟩ := spacing
  by_cases attached : before = "" ∧ pieces ≠ []
  · obtain ⟨rfl, nonempty⟩ := attached
    obtain ⟨⟨text, blanks⟩, pieces, rfl⟩ := List.exists_cons_of_ne_nil nonempty
    obtain ⟨here, token⟩ := List.forall_mem_cons.mp token
    refine ⟨⟨"", (String.singleton char ++ text, blanks) :: pieces, isGap_empty, ?_, ?_, ?_⟩, ?_⟩
    · exact List.forall_mem_cons.mpr ⟨isToken_singleton_append kept (.inr here), token⟩
    · exact List.forall_mem_cons.mpr (List.forall_mem_cons.mp gap)
    · obtain ⟨between, apart⟩ := forall_mem_dropLast_cons.mp apart
      exact forall_mem_dropLast_cons.mpr ⟨between, apart⟩
    · simp only [line, joined_cons, String.empty_append, String.append_assoc]
  · refine ⟨⟨"", (String.singleton char, before) :: pieces, isGap_empty, ?_, ?_, ?_⟩, ?_⟩
    · refine List.forall_mem_cons.mpr ⟨?_, token⟩
      simpa using isToken_singleton_append kept (.inl rfl)
    · exact List.forall_mem_cons.mpr ⟨blank, gap⟩
    · refine forall_mem_dropLast_cons.mpr ⟨?_, apart⟩
      intro nonempty none
      exact attached ⟨none, nonempty⟩
    · simp only [line, joined_cons, String.empty_append, String.append_assoc]

end Spacing

/-- Every line can be seen as a spaced one. -/
theorem exists_spacing (line : String) : ∃ spacing : Spacing, spacing.line = line := by
  rw [← String.ofList_toList (s := line)]
  induction line.toList with
  | nil => exact ⟨⟨"", [], isGap_empty, by simp, by simp, by simp⟩, rfl⟩
  | cons char chars ih =>
      obtain ⟨spacing, same⟩ := ih
      have front : String.ofList (char :: chars) =
          String.singleton char ++ String.ofList chars := by
        rw [← String.toList_inj]
        simp
      rw [front, ← same]
      cases separates : isSeparator char with
      | true => exact spacing.exists_cons_of_separator separates
      | false => exact spacing.exists_cons_of_token separates

theorem filter_of_isGap {gap : String} (blank : IsGap gap) :
    gap.toList.filter (fun char => !isSeparator char) = [] := by
  rw [List.filter_eq_nil_iff]
  intro char member
  simp [blank.isSeparator char member]

theorem filter_of_isToken {text : String} (token : IsToken text) :
    text.toList.filter (fun char => !isSeparator char) = text.toList := by
  rw [List.filter_eq_self]
  intro char member
  simp [token.isSeparator char member]

/-- What is left of the pieces without spaces and tabs is the tokens. -/
theorem filter_joined {pieces : List (String × String)}
    (token : ∀ piece ∈ pieces, IsToken piece.1) (gap : ∀ piece ∈ pieces, IsGap piece.2) :
    (joined pieces).toList.filter (fun char => !isSeparator char) =
      (pieces.map Prod.fst).flatMap String.toList := by
  induction pieces with
  | nil => rfl
  | cons piece pieces ih =>
      obtain ⟨text, blanks⟩ := piece
      obtain ⟨here, token⟩ := List.forall_mem_cons.mp token
      obtain ⟨blank, gap⟩ := List.forall_mem_cons.mp gap
      rw [joined_cons, String.toList_append, String.toList_append, List.filter_append,
        List.filter_append, filter_of_isToken here, filter_of_isGap blank, List.append_nil,
        ih token gap, List.map_cons, List.flatMap_cons]

/-- Of a spaced line only the gaps are left out. -/
theorem Spacing.filter_line (spacing : Spacing) :
    spacing.line.toList.filter (fun char => !isSeparator char) =
      spacing.tokens.flatMap String.toList := by
  rw [line, String.toList_append, List.filter_append, filter_of_isGap spacing.blank]
  exact filter_joined spacing.token spacing.gap

/-- Tokens with a gap between each and the next are taken apart again. -/
theorem tokenize_alternating {first : String} {more : List (String × String)}
    (token : IsToken first)
    (each : ∀ piece ∈ more, IsGap piece.1 ∧ piece.1 ≠ "" ∧ IsToken piece.2) :
    tokenize (first ++ joined more) = first :: more.map Prod.snd := by
  induction more generalizing first with
  | nil => rw [joined_nil, String.append_empty, tokenize_token token]; rfl
  | cons piece more ih =>
      obtain ⟨blanks, next⟩ := piece
      obtain ⟨⟨blank, some, later⟩, each⟩ := List.forall_mem_cons.mp each
      rw [joined_cons, String.append_assoc, ← String.append_assoc, tokenize_append_gap blank some,
        tokenize_token token, ih later each]
      rfl

/-- The tokens of a line are these exactly if the line is made of them with gaps around, so of a
line only separators are left out.  Tokens that are written with gaps between them are read again,
and a gap cuts a line in two that have nothing to do with each other. -/
theorem tokenize_eq_iff_spacing (line : String) :
    (∀ tokens, tokenize line = tokens ↔
      ∃ spacing : Spacing, spacing.line = line ∧ spacing.tokens = tokens) ∧
    (tokenize line).flatMap String.toList =
      line.toList.filter (fun char => char ≠ ' ' ∧ char ≠ '\t') ∧
    (∀ first more, IsToken first →
      (∀ piece ∈ more, IsGap piece.1 ∧ piece.1 ≠ "" ∧ IsToken piece.2) →
        line = first ++ joined more → tokenize line = first :: more.map Prod.snd) ∧
    (∀ gap other, IsGap gap → gap ≠ "" →
      tokenize (line ++ gap ++ other) = tokenize line ++ tokenize other) := by
  refine ⟨?_, ?_, ?_, ?_⟩
  · intro tokens
    constructor
    · rintro rfl
      obtain ⟨spacing, same⟩ := exists_spacing line
      exact ⟨spacing, same, by rw [← spacing.tokenize_line, same]⟩
    · rintro ⟨spacing, rfl, rfl⟩
      exact spacing.tokenize_line
  · obtain ⟨spacing, rfl⟩ := exists_spacing line
    rw [spacing.tokenize_line, ← spacing.filter_line]
    apply List.filter_congr
    intro char _
    rw [Bool.eq_iff_iff]
    simp [isSeparator]
  · rintro first more token each rfl
    exact tokenize_alternating token each
  · intro gap other blank some
    exact tokenize_append_gap blank some line other

/-- A tab before the first token, a no-break space in it, and a gap of both kinds after it. -/
theorem tokenize_eq_iff_spacing_mixed :
    tokenize "\ta\u00a0b \t>" = ["a\u00a0b", ">"] ∧ IsGap " \t" ∧
      tokenize ("\ta\u00a0b" ++ " \t" ++ ">") = tokenize "\ta\u00a0b" ++ tokenize ">" := by
  have blank : IsGap " \t" := by
    intro char member
    simpa using member
  let spacing : Spacing :=
    { before := "\t"
      pieces := [("a\u00a0b", " \t"), (">", "")]
      blank := by simp [IsGap]
      token := by simp [IsToken]
      gap := by simp [IsGap]
      apart := by simp }
  refine ⟨?_, blank, ?_⟩
  · exact ((tokenize_eq_iff_spacing _).1 _).mpr ⟨spacing, rfl, rfl⟩
  · exact (tokenize_eq_iff_spacing _).2.2.2 _ _ blank (by decide)

end CommandShell
