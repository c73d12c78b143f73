/-
Module: CommandShell.Text.Blank
Purpose: Blank characters, and taking them off the ends of a text.
Trusted boundary: none
Main exports:
  blanks, isBlank, trim
-/
namespace CommandShell.Text

/-!
Blank is the Unicode property `White_Space`: twenty-five characters, the line breaks, the
no-break spaces and the carriage return among them.
-/

/-- The characters with the property `White_Space`, in the order of their codes. -/
def blanks : List Char :=
  ['\u0009', '\u000A', '\u000B', '\u000C', '\u000D', '\u0020', '\u0085', '\u00A0', '\u1680',
    '\u2000', '\u2001', '\u2002', '\u2003', '\u2004', '\u2005', '\u2006', '\u2007', '\u2008',
    '\u2009', '\u200A', '\u2028', '\u2029', '\u202F', '\u205F', '\u3000']

example : blanks.length = 25 ∧ blanks.Pairwise (· < ·) := by decide

/-- Whether the character is white space. -/
def isBlank (char : Char) : Bool :=
  blanks.contains char

/-- The text without the blanks at its two ends. -/
def trim (chars : List Char) : List Char :=
  ((chars.dropWhile isBlank).reverse.dropWhile isBlank).reverse

end CommandShell.Text
