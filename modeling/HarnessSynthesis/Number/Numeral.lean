/-
# Numerals

Numbers that users wrote into strings, read whole: a numeral with anything before or behind it is
none. Doubles are rounded correctly from all their digits.
-/

import HarnessSynthesis.Number.Binary64

namespace HarnessSynthesis.Numeral

/-- The number that decimal digits stand for, with no other character among them. -/
def natural? (digits : Text) : Option Nat :=
  if digits = [] then none
  else digits.foldlM (fun n c =>
    if Text.isAsciiDigit c then some (n * 10 + (c.toNat - 48)) else none) 0

/-- A text without its sign, and whether that sign is a minus. -/
def splitSign : Text → Bool × Text
  | '-' :: rest => (true, rest)
  | '+' :: rest => (false, rest)
  | t => (false, t)

/-- A signed integer with an optional sign. -/
def integer? (t : Text) : Option Int :=
  let (negative, digits) := splitSign t
  (natural? digits).map fun n => if negative then -(n : Int) else n

/-- A signed word of 64 bits. -/
def int64? (t : Text) : Option Int :=
  (integer? t).filter (Word.fitsSigned 64)

/-- The exponent of a numeral behind its digits: a mark with an integer, or nothing. -/
def exponent? : Text → Option Int
  | [] => some 0
  | c :: rest => if c = 'e' ∨ c = 'E' then integer? rest else none

/-- Digits, then a point and more digits or neither, of which one at least must be there, then an
exponent. -/
def decimal? (negative : Bool) (t : Text) : Option Binary64 := do
  let whole := t.takeWhile Text.isAsciiDigit
  let rest := t.dropWhile Text.isAsciiDigit
  let (fraction, rest) := match rest with
    | '.' :: rest => (rest.takeWhile Text.isAsciiDigit, rest.dropWhile Text.isAsciiDigit)
    | rest => ([], rest)
  let digits ← natural? (whole ++ fraction)
  let exponent ← exponent? rest
  return Binary64.ofDecimal negative digits (exponent - fraction.length)

/-- A double: a decimal, an infinity or not a number, the words in any case. -/
def binary64? (t : Text) : Option Binary64 :=
  let (negative, rest) := splitSign t
  let word := Text.lower rest
  if word = "inf" ∨ word = "infinity" then some (.infinite negative)
  else if word = "nan" then some .notANumber
  else decimal? negative rest

end HarnessSynthesis.Numeral
