/-
Module: CommandShell.Text.Utf8
Purpose: The UTF-8 form of a text, and reading bytes back as text.
Trusted boundary: none
Main exports:
  Bytes, encode, decodeLossy, decode?, decodeLossy_encode, decode?_eq_some_iff
-/
namespace CommandShell

/-- What files, streams and paths are made of. -/
abbrev Bytes := List UInt8

namespace Text

/-!
Writing is one case per length of the encoded form.  Reading is a machine that looks at one byte
at a time and remembers the character it is inside of, so it is structural in the bytes.  Bytes
that are not UTF-8 cost one replacement character for each longest start of an encoded character
that is broken off, and one for each byte that starts none.
-/

/-- The UTF-8 form of one character. -/
def encodeChar (char : Char) : Bytes :=
  let code := char.toNat
  if code < 0x80 then
    [UInt8.ofNat code]
  else if code < 0x800 then
    [UInt8.ofNat (0xC0 + code / 64), UInt8.ofNat (0x80 + code % 64)]
  else if code < 0x10000 then
    [UInt8.ofNat (0xE0 + code / 4096), UInt8.ofNat (0x80 + code / 64 % 64),
      UInt8.ofNat (0x80 + code % 64)]
  else
    [UInt8.ofNat (0xF0 + code / 262144), UInt8.ofNat (0x80 + code / 4096 % 64),
      UInt8.ofNat (0x80 + code / 64 % 64), UInt8.ofNat (0x80 + code % 64)]

/-- The UTF-8 form of a text. -/
def encode (chars : List Char) : Bytes :=
  chars.flatMap encodeChar

/-- Stands for bytes that are not UTF-8. -/
def replacement : Char := '\uFFFD'

/-- A character whose first bytes have been read: the value of their bits, the number of bytes
that follow the next one, and the bounds of the next one.  Only the byte after the first has
bounds of its own: they rule out overlong forms, surrogates and codes past the last plane. -/
structure Pending where
  value : Nat
  following : Nat
  lower : Nat
  upper : Nat
deriving Repr, DecidableEq

/-- Read a byte where a character starts: what it finishes and what it leaves open. -/
def readLead (byte : UInt8) : List Char × Option Pending :=
  let code := byte.toNat
  if code < 0x80 then
    ([Char.ofNat code], none)
  else if code < 0xC2 then
    ([replacement], none)
  else if code < 0xE0 then
    ([], some ⟨code - 0xC0, 0, 0x80, 0xBF⟩)
  else if code < 0xF0 then
    ([], some ⟨code - 0xE0, 1, if code = 0xE0 then 0xA0 else 0x80,
      if code = 0xED then 0x9F else 0xBF⟩)
  else if code < 0xF5 then
    ([], some ⟨code - 0xF0, 2, if code = 0xF0 then 0x90 else 0x80,
      if code = 0xF4 then 0x8F else 0xBF⟩)
  else
    ([replacement], none)

/-- Read a byte inside a character.  One that does not belong there ends the character as broken
off and is read again as the start of the next. -/
def readContinuation (pending : Pending) (byte : UInt8) : List Char × Option Pending :=
  if pending.lower ≤ byte.toNat ∧ byte.toNat ≤ pending.upper then
    let value := pending.value * 64 + (byte.toNat - 0x80)
    match pending.following with
    | 0 => ([Char.ofNat value], none)
    | following + 1 => ([], some ⟨value, following, 0x80, 0xBF⟩)
  else
    let next := readLead byte
    (replacement :: next.1, next.2)

/-- Read bytes from inside a character (`some`) or between two (`none`). -/
def decodeFrom : Option Pending → Bytes → List Char
  | none, [] => []
  | some _, [] => [replacement]
  | none, byte :: rest =>
      (readLead byte).1 ++ decodeFrom (readLead byte).2 rest
  | some pending, byte :: rest =>
      (readContinuation pending byte).1 ++ decodeFrom (readContinuation pending byte).2 rest

/-- The text of bytes, with replacement characters for what is not UTF-8. -/
def decodeLossy (bytes : Bytes) : List Char :=
  decodeFrom none bytes

/-- The text that the bytes are the UTF-8 form of, if there is one. -/
def decode? (bytes : Bytes) : Option (List Char) :=
  if encode (decodeLossy bytes) = bytes then some (decodeLossy bytes) else none

/-!
Reading gives back what was written, whatever comes after it.  So the text of bytes, when there
is one, is unique, and `decode?` finds it.
-/

private theorem toNat_ofNat_byte {code : Nat} (small : code < 256) :
    (UInt8.ofNat code).toNat = code := by
  simp [Nat.mod_eq_of_lt small]

/-- A continuation byte in bounds that is the last one. -/
private theorem readContinuation_last {value lower upper low : Nat} (small : low < 64)
    (above : lower ≤ 0x80 + low) (below : 0x80 + low ≤ upper) :
    readContinuation ⟨value, 0, lower, upper⟩ (UInt8.ofNat (0x80 + low)) =
      ([Char.ofNat (value * 64 + low)], none) := by
  have byte := toNat_ofNat_byte (show 0x80 + low < 256 by omega)
  simp only [readContinuation, byte]
  rw [if_pos ⟨above, below⟩, show 0x80 + low - 0x80 = low by omega]

/-- A continuation byte in bounds that others follow. -/
private theorem readContinuation_more {value following lower upper low : Nat} (small : low < 64)
    (above : lower ≤ 0x80 + low) (below : 0x80 + low ≤ upper) :
    readContinuation ⟨value, following + 1, lower, upper⟩ (UInt8.ofNat (0x80 + low)) =
      ([], some ⟨value * 64 + low, following, 0x80, 0xBF⟩) := by
  have byte := toNat_ofNat_byte (show 0x80 + low < 256 by omega)
  simp only [readContinuation, byte]
  rw [if_pos ⟨above, below⟩, show 0x80 + low - 0x80 = low by omega]

/-- Below 0x80 a byte is a character by itself. -/
private theorem readLead_one {code : Nat} (small : code < 0x80) :
    readLead (UInt8.ofNat code) = ([Char.ofNat code], none) := by
  simp only [readLead, toNat_ofNat_byte (show code < 256 by omega)]
  rw [if_pos small]

/-- A lead byte of two announces one continuation, with nothing special about its range. -/
private theorem readLead_two {high : Nat} (least : 2 ≤ high) (small : high < 32) :
    readLead (UInt8.ofNat (0xC0 + high)) = ([], some ⟨high, 0, 0x80, 0xBF⟩) := by
  simp only [readLead, toNat_ofNat_byte (show 0xC0 + high < 256 by omega)]
  rw [if_neg (by omega), if_neg (by omega), if_pos (by omega),
    show 0xC0 + high - 0xC0 = high by omega]

/-- A lead byte of three announces two continuations; the range of the first keeps out overlong
forms and surrogates. -/
private theorem readLead_three {high : Nat} (small : high < 16) :
    readLead (UInt8.ofNat (0xE0 + high)) =
      ([], some ⟨high, 1, if high = 0 then 0xA0 else 0x80,
        if high = 13 then 0x9F else 0xBF⟩) := by
  simp only [readLead, toNat_ofNat_byte (show 0xE0 + high < 256 by omega)]
  rw [if_neg (by omega), if_neg (by omega), if_neg (by omega), if_pos (by omega),
    show 0xE0 + high - 0xE0 = high by omega]
  simp only [show (0xE0 + high = 0xE0) = (high = 0) from propext (by omega),
    show (0xE0 + high = 0xED) = (high = 13) from propext (by omega)]

/-- A lead byte of four announces three continuations; the range of the first keeps out overlong
forms and all that is beyond the last character. -/
private theorem readLead_four {high : Nat} (small : high < 5) :
    readLead (UInt8.ofNat (0xF0 + high)) =
      ([], some ⟨high, 2, if high = 0 then 0x90 else 0x80,
        if high = 4 then 0x8F else 0xBF⟩) := by
  simp only [readLead, toNat_ofNat_byte (show 0xF0 + high < 256 by omega)]
  rw [if_neg (by omega), if_neg (by omega), if_neg (by omega), if_neg (by omega),
    if_pos (by omega), show 0xF0 + high - 0xF0 = high by omega]
  simp only [show (0xF0 + high = 0xF0) = (high = 0) from propext (by omega),
    show (0xF0 + high = 0xF4) = (high = 4) from propext (by omega)]

/-- Reading the bytes of a character gives the character and leaves nothing begun. -/
theorem decodeFrom_encodeChar (char : Char) (rest : Bytes) :
    decodeFrom none (encodeChar char ++ rest) = char :: decodeFrom none rest := by
  have valid : char.toNat < 0xD800 ∨ 0xDFFF < char.toNat ∧ char.toNat < 0x110000 := by
    have scalar := char.valid
    simp only [UInt32.isValidChar, Nat.isValidChar] at scalar
    exact scalar
  have same : Char.ofNat char.toNat = char := Char.ofNat_toNat char
  unfold encodeChar
  generalize char.toNat = code at valid same
  subst same
  dsimp only
  split
  case isTrue one =>
    simp only [List.cons_append, List.nil_append, decodeFrom, readLead_one one]
  case isFalse notOne =>
  split
  case isTrue two =>
    have whole : code / 64 * 64 + code % 64 = code := by omega
    simp only [List.cons_append, List.nil_append, decodeFrom,
      readLead_two (show 2 ≤ code / 64 by omega) (show code / 64 < 32 by omega),
      readContinuation_last (show code % 64 < 64 by omega) (show 0x80 ≤ 0x80 + code % 64 by omega)
        (show 0x80 + code % 64 ≤ 0xBF by omega), whole]
  case isFalse notTwo =>
  split
  case isTrue three =>
    have whole : (code / 4096 * 64 + code / 64 % 64) * 64 + code % 64 = code := by omega
    have above : (if code / 4096 = 0 then 0xA0 else 0x80) ≤ 0x80 + code / 64 % 64 := by
      split <;> omega
    have below : 0x80 + code / 64 % 64 ≤ (if code / 4096 = 13 then 0x9F else 0xBF) := by
      split <;> omega
    simp only [List.cons_append, List.nil_append, decodeFrom,
      readLead_three (show code / 4096 < 16 by omega),
      readContinuation_more (show code / 64 % 64 < 64 by omega) above below,
      readContinuation_last (show code % 64 < 64 by omega) (show 0x80 ≤ 0x80 + code % 64 by omega)
        (show 0x80 + code % 64 ≤ 0xBF by omega), whole]
  case isFalse notThree =>
    have whole : ((code / 262144 * 64 + code / 4096 % 64) * 64 + code / 64 % 64) * 64 +
        code % 64 = code := by omega
    have above : (if code / 262144 = 0 then 0x90 else 0x80) ≤ 0x80 + code / 4096 % 64 := by
      split <;> omega
    have below : 0x80 + code / 4096 % 64 ≤ (if code / 262144 = 4 then 0x8F else 0xBF) := by
      split <;> omega
    simp only [List.cons_append, List.nil_append, decodeFrom,
      readLead_four (show code / 262144 < 5 by omega),
      readContinuation_more (show code / 4096 % 64 < 64 by omega) above below,
      readContinuation_more (show code / 64 % 64 < 64 by omega)
        (show 0x80 ≤ 0x80 + code / 64 % 64 by omega) (show 0x80 + code / 64 % 64 ≤ 0xBF by omega),
      readContinuation_last (show code % 64 < 64 by omega) (show 0x80 ≤ 0x80 + code % 64 by omega)
        (show 0x80 + code % 64 ≤ 0xBF by omega), whole]

theorem decodeLossy_encode (chars : List Char) : decodeLossy (encode chars) = chars := by
  induction chars with
  | nil => rfl
  | cons char chars ih =>
      rw [decodeLossy] at ih ⊢
      rw [encode, List.flatMap_cons, decodeFrom_encodeChar, ← encode, ih]

/-- Exactly the UTF-8 forms of texts are read, each as the text it is the form of. -/
theorem decode?_eq_some_iff {bytes : Bytes} {chars : List Char} :
    decode? bytes = some chars ↔ bytes = encode chars := by
  unfold decode?
  constructor
  · intro found
    split at found
    case isTrue same =>
      cases found
      exact same.symm
    case isFalse => cases found
  · rintro rfl
    rw [decodeLossy_encode, if_pos rfl]

end Text

/-- The bytes that a text is written as. -/
def bytesOf (text : String) : Bytes :=
  Text.encode text.toList

/-- The text shown for bytes that may not be UTF-8. -/
def shown (bytes : Bytes) : String :=
  String.ofList (Text.decodeLossy bytes)

/-- The text that the bytes are written as, if they are UTF-8. -/
def textOf? (bytes : Bytes) : Option String :=
  (Text.decode? bytes).map String.ofList

/-- The bytes of a text are shown as the text. -/
theorem shown_bytesOf (text : String) : shown (bytesOf text) = text := by
  rw [shown, bytesOf, Text.decodeLossy_encode, String.ofList_toList]

/-- The bytes of a text stand for that text. -/
theorem textOf?_bytesOf (text : String) : textOf? (bytesOf text) = some text := by
  rw [textOf?, bytesOf, Text.decode?_eq_some_iff.mpr rfl, Option.map_some, String.ofList_toList]

end CommandShell
