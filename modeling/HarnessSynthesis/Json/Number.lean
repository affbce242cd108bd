/-
# JSON numbers

A JSON number is an integer when its spelling is one and it fits a word of 64 bits, signed or
unsigned, and a double otherwise. `Spelling` is the spelling split at its marks and
`Spelling.value?` decides the number it stands for.

A double is not read by one correct rounding. The digits are gathered in an unsigned word, those
that no longer fit only move the decimal point or are passed over, and the word is then scaled by a
power of ten that is itself a double. `Scaled` is that intermediate form.
-/

import HarnessSynthesis.Number.Decimal

namespace HarnessSynthesis.Json

/-- A JSON number, an integer apart from a double of the same size. -/
inductive Number where
  | integer (i : Int)
  | binary (b : Binary64)
  deriving DecidableEq, Repr

namespace Number

/-- The text of a number: an integer by its digits, a double by its shortest decimal. -/
def write : Number → Text
  | .integer i => Text.ofInt i
  | .binary b => Layout.data.write b

/-- The number as a double. -/
def toBinary64 : Number → Binary64
  | .integer i => Binary64.ofInt i
  | .binary b => b

/-- The number as a signed word, when it is an integer that fits one. -/
def toInt64? : Number → Option Int
  | .integer i => if i ≤ Word.greatestSigned 64 then some i else none
  | .binary _ => none

/-- The number as an unsigned word, when it is an integer that fits one. -/
def toUInt64? : Number → Option Nat
  | .integer i => if 0 ≤ i then some i.toNat else none
  | .binary _ => none

end Number

/-! ## Spelling -/

/-- A number as it is spelled: its digits before the point, behind the point, and in the exponent
with whether that exponent is negative. -/
structure Spelling where
  negative : Bool
  whole : Text
  fraction : Option Text
  exponent : Option (Bool × Text)
  deriving Repr

namespace Spelling

/-- Digits at the head of a text, and the rest. -/
def digits (t : Text) : Text × Text :=
  (t.takeWhile Text.isAsciiDigit, t.dropWhile Text.isAsciiDigit)

/-- The digits before the point: a zero alone, or digits that start with another one. -/
def lexWhole? : Text → Option (Text × Text)
  | '0' :: rest =>
    match rest with
    | c :: _ => if Text.isAsciiDigit c then none else some (['0'], rest)
    | [] => some (['0'], [])
  | t =>
    let (ds, rest) := digits t
    if ds = [] then none else some (ds, rest)

/-- A point with at least one digit behind it, or no point. -/
def lexFraction? : Text → Option (Option Text × Text)
  | '.' :: rest =>
    let (ds, rest) := digits rest
    if ds = [] then none else some (some ds, rest)
  | t => some (none, t)

/-- The digits of an exponent behind its sign. -/
def lexExponentDigits? (negative : Bool) (t : Text) : Option (Option (Bool × Text) × Text) :=
  let (ds, rest) := digits t
  if ds = [] then none else some (some (negative, ds), rest)

/-- An exponent with at least one digit, or none. -/
def lexExponent? : Text → Option (Option (Bool × Text) × Text)
  | 'e' :: '+' :: rest | 'E' :: '+' :: rest => lexExponentDigits? false rest
  | 'e' :: '-' :: rest | 'E' :: '-' :: rest => lexExponentDigits? true rest
  | 'e' :: rest | 'E' :: rest => lexExponentDigits? false rest
  | t => some (none, t)

/-- The number at the head of a text behind its sign. -/
def lexUnsigned? (negative : Bool) (t : Text) : Option (Spelling × Text) := do
  let (whole, t) ← lexWhole? t
  let (fraction, t) ← lexFraction? t
  let (exponent, t) ← lexExponent? t
  return (⟨negative, whole, fraction, exponent⟩, t)

/-- The number at the head of a text, when it is spelled as one. -/
def lex? : Text → Option (Spelling × Text)
  | '-' :: rest => lexUnsigned? true rest
  | t => lexUnsigned? false t

/-! ## Value -/

/-- The value of an ASCII digit. -/
def digitValue (c : Char) : Nat :=
  c.toNat - 48

/-- Digits gathered in an unsigned word, with the power of ten they are to be scaled by. -/
structure Scaled where
  word : Nat
  exponent : Int
  deriving DecidableEq, Repr

/-- Digits gathered for as long as the word holds them, and the digits that are left. -/
def gather : Nat → Text → Nat × Text
  | word, [] => (word, [])
  | word, c :: rest =>
    let next := word * 10 + digitValue c
    if Word.greatest 64 < next then (word, c :: rest) else gather next rest

/-- The digits of a number without its exponent. Before the point, every digit the word cannot
hold raises the power of ten. Behind it, each digit that is gathered lowers the power and the
others are dropped. -/
def scaled (l : Spelling) : Scaled :=
  let (word, left) := gather 0 l.whole
  match l.fraction with
  | none => ⟨word, left.length⟩
  | some fraction =>
    let (word, dropped) := gather word fraction
    ⟨word, (left.length : Int) - (fraction.length - dropped.length : Nat)⟩

/-- The exponent's digits as a number, unless they exceed a signed word of 32 bits. -/
def exponentValue? : Text → Option Nat
  | ds => ds.foldlM (fun n c => if Word.greatest 31 < n * 10 + digitValue c then none
      else some (n * 10 + digitValue c)) 0

/-- The power of ten as a double, for those powers that are doubles. -/
def powerOfTen (n : Nat) : Binary64 :=
  Binary64.ofQuotient false (Nat.pow 10 n) 1

/-- A double scaled by a power of ten. A power that is no double is taken in steps of
ten to the 308th, and what exceeds the doubles is no number. -/
def scale? : (fuel : Nat) → Binary64 → Int → Option Binary64
  | 0, f, _ => some f
  | fuel + 1, f, exponent =>
    if exponent.natAbs ≤ 308 then
      if 0 ≤ exponent then
        let product := f.times (powerOfTen exponent.natAbs)
        if product.isFinite then some product else none
      else some (f.dividedBy (powerOfTen exponent.natAbs))
    else if f.isZero then some f
    else if 0 ≤ exponent then none
    else scale? fuel (f.dividedBy (powerOfTen 308)) (exponent + 308)

/-- A scaled word as a double. The word is below ten to the twentieth, so it vanishes within
three steps of scaling. -/
def Scaled.toBinary64? (negative : Bool) (s : Scaled) : Option Number :=
  (scale? 4 (Binary64.ofInt s.word) s.exponent).map fun f =>
    .binary (if negative then f.opposite else f)

/-- The number that a spelling stands for. A spelling too large for every double stands for none. -/
def value? (l : Spelling) : Option Number :=
  let s := l.scaled
  match l.exponent with
  | some (lowered, ds) =>
    match exponentValue? ds with
    | none =>
      if s.word ≠ 0 ∧ lowered = false then none
      else some (.binary (Binary64.zero l.negative))
    | some e =>
      let exponent : Int := if lowered then s.exponent - e else s.exponent + e
      Scaled.toBinary64? l.negative ⟨s.word, exponent⟩
  | none =>
    if l.fraction.isSome || s.exponent != 0 then s.toBinary64? l.negative
    else if l.negative then
      if s.word = 0 ∨ Nat.pow 2 63 < s.word then
        some (.binary (Binary64.ofInt s.word).opposite)
      else some (.integer (-s.word))
    else some (.integer s.word)

end Spelling

end HarnessSynthesis.Json
