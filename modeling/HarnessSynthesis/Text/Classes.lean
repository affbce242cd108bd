/-
# Character classes of the scanners

Source text is scanned with three classes of characters: blanks, word characters and alphanumeric
characters. All three are classes of Unicode and not of ASCII, since identifiers and spacing of
user programs come from every script. ASCII is decided by comparison; the tables of
`HarnessSynthesis.Text.Ranges` are searched only for the rest. Names and words keep to different
versions of the standard: names to version 17, words and their boundaries to version 16.
-/

import HarnessSynthesis.Text.Ranges

namespace HarnessSynthesis.Text

/-- Whether a code point lies in one of the closed ranges. -/
def inRanges (ranges : List (Nat × Nat)) (code : Nat) : Bool :=
  ranges.any fun (first, last) => first ≤ code && code ≤ last

/-- An ASCII letter. -/
def isAsciiLetter (c : Char) : Bool :=
  ('a' ≤ c && c ≤ 'z') || ('A' ≤ c && c ≤ 'Z')

/-- An ASCII digit. -/
def isAsciiDigit (c : Char) : Bool :=
  '0' ≤ c && c ≤ '9'

/-- White space in the sense of Unicode: what trimming removes and what separates words. -/
def isBlank (c : Char) : Bool :=
  if c.toNat < 0x80 then
    c == ' ' || (9 ≤ c.toNat && c.toNat ≤ 13)
  else
    inRanges Ranges.whiteSpace c.toNat

/-- White space within ASCII, without the vertical tab. -/
def isAsciiBlank (c : Char) : Bool :=
  c == ' ' || c == '\t' || c == '\n' || c == '\r' || c == '\x0c'

/-- Letters and numbers of every script; the low line and combining marks are not among them. -/
def isAlphanumeric (c : Char) : Bool :=
  if c.toNat < 0x80 then
    isAsciiLetter c || isAsciiDigit c
  else
    inRanges Ranges.alphabetic c.toNat || inRanges Ranges.decimalDigit c.toNat ||
      inRanges Ranges.otherNumber c.toNat

/-- Characters that identifiers are made of: an alphanumeric character or the low line. -/
def isNameChar (c : Char) : Bool :=
  isAlphanumeric c || c == '_'

/-- Word characters: letters, marks, decimal digits, connectors and the join controls, without those
that version 17 of the standard added. A word boundary lies wherever a word character meets a
character that is none. -/
def isWordChar (c : Char) : Bool :=
  if c.toNat < 0x80 then
    isAsciiLetter c || isAsciiDigit c || c == '_'
  else
    (inRanges Ranges.alphabetic c.toNat || inRanges Ranges.mark c.toNat ||
      inRanges Ranges.decimalDigit c.toNat || inRanges Ranges.connector c.toNat ||
      inRanges Ranges.joinControl c.toNat) && !inRanges Ranges.youngest c.toNat

/-- The first character of an identifier is an ASCII letter or the low line. -/
def isNameStart (c : Char) : Bool :=
  isAsciiLetter c || c == '_'

/-- ASCII letters in lower case; every other character stays. -/
def lowerAscii (c : Char) : Char :=
  if 'A' ≤ c && c ≤ 'Z' then Char.ofNat (c.toNat + 32) else c

/-- An ASCII letter is a word character. -/
theorem isWordChar_of_isNameStart {c : Char} (h : isNameStart c = true) :
    isWordChar c = true := by
  unfold isWordChar
  split
  · simp only [isNameStart, Bool.or_eq_true] at h ⊢
    rcases h with h | h
    · exact Or.inl (Or.inl h)
    · exact Or.inr h
  · rename_i wide
    exfalso
    apply wide
    simp only [isNameStart, isAsciiLetter, Bool.or_eq_true, Bool.and_eq_true, decide_eq_true_eq,
      beq_iff_eq] at h
    rcases h with (⟨_, h⟩ | ⟨_, h⟩) | h
    · exact Nat.lt_of_le_of_lt (show c.toNat ≤ 'z'.toNat from h) (by decide)
    · exact Nat.lt_of_le_of_lt (show c.toNat ≤ 'Z'.toNat from h) (by decide)
    · subst h; decide

end HarnessSynthesis.Text
