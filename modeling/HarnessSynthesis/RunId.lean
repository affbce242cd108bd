/-
# Run identifiers

A run is known by a number of 128 bits. It is written as thirty-two hexadecimal digits in groups of
eight, four, four, four and twelve, and it may be given without the hyphens, in braces, or behind
the name of its scheme.
-/

import HarnessSynthesis.Json.Decoder

namespace HarnessSynthesis

open Json

/-- The number of a run. -/
structure RunId where
  value : BitVec 128
  deriving DecidableEq, Repr

namespace RunId

/-- The identifier of no run in particular. -/
def nil : RunId := ⟨0⟩

/-- The lowest `count` hexadecimal digits of a number. -/
def hexDigits : (count : Nat) → Nat → Text
  | 0, _ => []
  | count + 1, n => hexDigits count (n / 16) ++ [Node.hexDigit (n % 16)]

/-- Digits with hyphens between the groups. -/
def hyphenate (digits : Text) : Text :=
  Text.join "-" [digits.take 8, (digits.drop 8).take 4, (digits.drop 12).take 4,
    (digits.drop 16).take 4, digits.drop 20]

/-- The identifier in its usual form. -/
def write (r : RunId) : Text :=
  hyphenate (hexDigits 32 r.value.toNat)

/-- The value of a hexadecimal digit of either case. -/
def digit? (c : Char) : Option Nat :=
  if '0' ≤ c ∧ c ≤ '9' then some (c.toNat - 48)
  else if 'a' ≤ c ∧ c ≤ 'f' then some (c.toNat - 87)
  else if 'A' ≤ c ∧ c ≤ 'F' then some (c.toNat - 55)
  else none

/-- The number that hexadecimal digits write. -/
def number? (digits : Text) : Option Nat :=
  digits.foldlM (fun n c => (digit? c).map (16 * n + ·)) 0

/-- An identifier of thirty-two digits without hyphens. -/
def ofDigits? (t : Text) : Option RunId := do
  guard (t.length = 32)
  let n ← number? t
  return ⟨BitVec.ofNat 128 n⟩

/-- An identifier whose digits are grouped. -/
def ofGroups? (t : Text) : Option RunId := do
  let digits := t.filter (· ≠ '-')
  guard (hyphenate digits = t)
  ofDigits? digits

/-- An identifier in braces. -/
def ofBraces? (t : Text) : Option RunId := do
  ofGroups? (← Text.beforeSuffix? "\x7d" (← Text.afterPrefix? "\x7b" t))

/-- An identifier behind the name of its scheme. -/
def ofScheme? (t : Text) : Option RunId := do
  ofGroups? (← Text.afterPrefix? "urn:uuid:" t)

/-- The identifier that a text gives in any of its forms. -/
def parse? (t : Text) : Option RunId :=
  ofDigits? t <|> ofGroups? t <|> ofBraces? t <|> ofScheme? t

def decoder : Decoder RunId := Decoder.text.refine parse?

def encode (r : RunId) : Node := .text r.write

end RunId

end HarnessSynthesis
