/-
# Double-precision numbers

A double is kept as what it denotes: a sign, a mantissa and a power of two, or one of the values
that are no number. Rounding happens in one place, `ofQuotient`, which takes an exact quotient of
natural numbers to the nearest double, a tie going to the even mantissa. Every operation computes
its exact result first and rounds once, so arithmetic here is arithmetic of natural numbers.
-/

import HarnessSynthesis.Number.Word
import HarnessSynthesis.Text.Basic

namespace HarnessSynthesis

/-- A double: `mantissa * 2 ^ exponent` under a sign, an infinity, or not a number. -/
inductive Binary64 where
  | finite (negative : Bool) (mantissa : Nat) (exponent : Int)
  | infinite (negative : Bool)
  | notANumber
  deriving DecidableEq, Repr

namespace Binary64

/-- Exponent of the smallest doubles. -/
def minExponent : Int := -1074

/-- Exponent of the largest doubles. -/
def maxExponent : Int := 971

/-- The zero of either sign. -/
def zero (negative : Bool) : Binary64 :=
  .finite negative 0 minExponent

/-! ## Rounding -/

/-- A quotient rounded to the nearest natural number, a tie to the even one. -/
def roundQuotient (numerator denominator : Nat) : Nat :=
  let whole := numerator / denominator
  let doubled := 2 * (numerator % denominator)
  if doubled < denominator then whole
  else if denominator < doubled then whole + 1
  else if whole % 2 = 0 then whole
  else whole + 1

/-- The greatest power of two that is not above a quotient of positive numbers. -/
def floorLog2 (numerator denominator : Nat) : Int :=
  let guess : Int := (numerator.log2 : Int) - (denominator.log2 : Int)
  let reached :=
    if 0 ≤ guess then denominator * Nat.pow 2 guess.toNat ≤ numerator
    else denominator ≤ numerator * Nat.pow 2 (-guess).toNat
  if reached then guess else guess - 1

/-- The double nearest to a quotient with a positive denominator. -/
def ofQuotient (negative : Bool) (numerator denominator : Nat) : Binary64 :=
  if numerator = 0 then zero negative
  else
    let exponent := max (floorLog2 numerator denominator - 52) minExponent
    let mantissa :=
      if 0 ≤ exponent then roundQuotient numerator (denominator * Nat.pow 2 exponent.toNat)
      else roundQuotient (numerator * Nat.pow 2 (-exponent).toNat) denominator
    let (mantissa, exponent) :=
      if mantissa = Nat.pow 2 53 then (Nat.pow 2 52, exponent + 1) else (mantissa, exponent)
    if maxExponent < exponent then .infinite negative
    else .finite negative mantissa exponent

/-- The double nearest to an integer. -/
def ofInt (i : Int) : Binary64 :=
  ofQuotient (i < 0) i.natAbs 1

/-- The double nearest to `digits * 10 ^ exponent`. Scales beyond those of every double are
decided without computing the power. -/
def ofDecimal (negative : Bool) (digits : Nat) (exponent : Int) : Binary64 :=
  if digits = 0 then zero negative
  else if 400 < exponent then .infinite negative
  else if (Text.ofNat digits).length + exponent < -400 then zero negative
  else if 0 ≤ exponent then ofQuotient negative (digits * Nat.pow 10 exponent.toNat) 1
  else ofQuotient negative digits (Nat.pow 10 (-exponent).toNat)

/-! ## Arithmetic -/

/-- The magnitude of a finite double as a quotient. -/
def magnitude (mantissa : Nat) (exponent : Int) : Nat × Nat :=
  if 0 ≤ exponent then (mantissa * Nat.pow 2 exponent.toNat, 1)
  else (mantissa, Nat.pow 2 (-exponent).toNat)

/-- The product of two finite doubles, rounded once. -/
def times : Binary64 → Binary64 → Binary64
  | .finite s m e, .finite s' m' e' =>
    let (n, d) := magnitude m e
    let (n', d') := magnitude m' e'
    ofQuotient (s != s') (n * n') (d * d')
  | _, _ => .notANumber

/-- The quotient of two finite doubles, the second not zero, rounded once. -/
def dividedBy : Binary64 → Binary64 → Binary64
  | .finite s m e, .finite s' m' e' =>
    let (n, d) := magnitude m e
    let (n', d') := magnitude m' e'
    if n' = 0 then .notANumber else ofQuotient (s != s') (n * d') (d * n')
  | _, _ => .notANumber

/-- The number with its sign turned. -/
def opposite : Binary64 → Binary64
  | .finite s m e => .finite (!s) m e
  | .infinite s => .infinite (!s)
  | .notANumber => .notANumber

/-! ## Order and whole numbers -/

/-- A finite double counted in units of the smallest positive one. Both zeros count as zero. -/
def units : Binary64 → Int
  | .finite negative mantissa exponent =>
    let size : Int := mantissa * Nat.pow 2 (exponent - minExponent).toNat
    if negative then -size else size
  | _ => 0

/-- The numerical order of finite doubles. -/
def compare (a b : Binary64) : Ordering :=
  Ord.compare a.units b.units

def isFinite : Binary64 → Bool
  | .finite _ _ _ => true
  | _ => false

/-- Whether a double is equal to zero of either sign. -/
def isZero : Binary64 → Bool
  | .finite _ 0 _ => true
  | _ => false

/-- Whether a double is a whole number. -/
def isWhole : Binary64 → Bool
  | .finite _ mantissa exponent =>
    0 ≤ exponent || mantissa % Nat.pow 2 (-exponent).toNat = 0
  | _ => false

/-- A finite double without its fraction. -/
def truncate : Binary64 → Int
  | .finite negative mantissa exponent =>
    let (n, d) := magnitude mantissa exponent
    if negative then -(n / d : Nat) else (n / d : Nat)
  | _ => 0

/-- The signed word nearest to a double whose fraction is dropped. What is no number goes to
zero, an infinity to the end on its side. -/
def toInt64 : Binary64 → Int
  | .finite s m e =>
    max (Word.leastSigned 64) (min (Word.greatestSigned 64) (truncate (.finite s m e)))
  | .infinite negative => if negative then Word.leastSigned 64 else Word.greatestSigned 64
  | .notANumber => 0

end Binary64

end HarnessSynthesis
