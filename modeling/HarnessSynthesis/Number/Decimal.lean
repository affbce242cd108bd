/-
# Doubles in decimal

The text of a double has the fewest digits that still read back as the same double, and of those
the nearest. `shortest` finds them by asking, for each number of digits in turn, whether one of the
two neighbours on that decimal grid lies within the interval of reals that round to the double.
The interval and the grid are compared exactly, in natural numbers.

How the digits are laid out differs between the two formats written by the library. Each is one
record: `Layout.data` for JSON and `Layout.literal` for floating-point literals in programs.
-/

import HarnessSynthesis.Number.Binary64

namespace HarnessSynthesis

/-! ## The digits -/

/-- Which neighbour a tie between two shortest decimals goes to. -/
inductive TieRule where
  | even
  | up
  deriving DecidableEq, Repr

/-- The decimal `digits * 10 ^ exponent`. -/
structure Decimal where
  digits : Nat
  exponent : Int
  deriving DecidableEq, Repr

namespace Decimal

/-- The greatest power of ten that is not above a quotient of positive numbers. -/
def floorLog10 (numerator denominator : Nat) : Int :=
  if denominator ≤ numerator then
    ((Text.ofNat (numerator / denominator)).length : Int) - 1
  else
    let inverse := (denominator + numerator - 1) / numerator
    Int.negOfNat (Text.ofNat (inverse - 1)).length

/-- A positive double with the interval around it, measured in quarters of its last place. -/
structure Interval where
  low : Nat
  value : Nat
  high : Nat
  closed : Bool

/-- The reals that round to `mantissa * 2 ^ exponent`. Below a power of two the neighbours stand
twice as close, and the ends belong to the interval when the mantissa is even. -/
def interval (mantissa : Nat) (exponent : Int) : Interval where
  low := if mantissa = Nat.pow 2 52 ∧ Binary64.minExponent < exponent then 4 * mantissa - 1
    else 4 * mantissa - 2
  value := 4 * mantissa
  high := 4 * mantissa + 2
  closed := mantissa % 2 = 0

/-- Whether a point, given in the same measure as the interval times `unit`, lies in it. -/
def Interval.holds (i : Interval) (unit point : Nat) : Bool :=
  if i.closed then i.low * unit ≤ point && point ≤ i.high * unit
  else i.low * unit < point && point < i.high * unit

/-- The neighbour of the value on the grid of multiples of `step` that reads back, the nearer one
when both do. -/
def onGrid (tie : TieRule) (i : Interval) (unit step : Nat) : Option Nat :=
  let value := i.value * unit
  let below := value / step
  let above := below + 1
  match i.holds unit (below * step) && below != 0, i.holds unit (above * step) with
  | true, true =>
    let fall := value - below * step
    let rise := above * step - value
    if fall < rise then some below
    else if rise < fall then some above
    else match tie with
      | .even => if below % 2 = 0 then some below else some above
      | .up => some above
  | true, false => some below
  | false, true => some above
  | false, false => none

/-- The first grid with a hit, from `count` digits on. -/
def search (tie : TieRule) (i : Interval) (exponent : Int) (top : Int) :
    (fuel count : Nat) → Decimal
  | 0, _ => ⟨i.value, 0⟩
  | fuel + 1, count =>
    let place : Int := top - count + 1
    let scale : Int := exponent - 2
    let unit := Nat.pow 2 scale.toNat * Nat.pow 10 (-place).toNat
    let step := Nat.pow 10 place.toNat * Nat.pow 2 (-scale).toNat
    match onGrid tie i unit step with
    | some digits => ⟨digits, place⟩
    | none => search tie i exponent top fuel (count + 1)

/-- A decimal without zeros at its end. -/
def strip : (fuel : Nat) → Decimal → Decimal
  | 0, d => d
  | fuel + 1, d =>
    if d.digits ≠ 0 ∧ d.digits % 10 = 0 then strip fuel ⟨d.digits / 10, d.exponent + 1⟩ else d

/-- The shortest decimal that reads back as `mantissa * 2 ^ exponent`, for a positive mantissa.
Seventeen digits always suffice. -/
def shortest (tie : TieRule) (mantissa : Nat) (exponent : Int) : Decimal :=
  let (n, d) := Binary64.magnitude mantissa exponent
  strip 20 (search tie (interval mantissa exponent) exponent (floorLog10 n d) 17 1)

end Decimal

/-! ## The layout -/

/-- How a format lays out the digits of a double. -/
structure Layout where
  /-- Decimal exponents written positionally, from the first to the last. -/
  plainFrom : Int
  plainTo : Int
  /-- Whether a positive exponent carries its sign. -/
  signedExponent : Bool
  tie : TieRule

namespace Layout

/-- JSON writes exponents from -5 to 15 positionally and signs every other one. -/
def data : Layout := ⟨-5, 15, true, .even⟩

/-- Program literals are positional from 0.0001 to below ten to the sixteenth. -/
def literal : Layout := ⟨-4, 15, false, .up⟩

/-- Digits with the decimal point after the first `exponent + 1` of them. -/
def plain (digits : Text) (exponent : Int) : Text :=
  if exponent < 0 then
    ['0', '.'] ++ List.replicate (-exponent - 1).toNat '0' ++ digits
  else
    let whole := exponent.toNat + 1
    if digits.length ≤ whole then
      digits ++ List.replicate (whole - digits.length) '0' ++ ['.', '0']
    else digits.take whole ++ ['.'] ++ digits.drop whole

/-- Digits with the point after the first one, then the exponent. -/
def scientific (layout : Layout) (digits : Text) (exponent : Int) : Text :=
  let mark := if 0 ≤ exponent ∧ layout.signedExponent = true then ['e', '+'] else ['e']
  let point := if digits.length ≤ 1 then [] else ['.']
  digits.take 1 ++ point ++ digits.drop 1 ++ mark ++ Text.ofInt exponent

/-- The text of a double in a layout. -/
def write (layout : Layout) : Binary64 → Text
  | .finite negative mantissa exponent =>
    let sign : Text := if negative then ['-'] else []
    if mantissa = 0 then sign ++ ['0', '.', '0']
    else
      let shortest := Decimal.shortest layout.tie mantissa exponent
      let digits := Text.ofNat shortest.digits
      let top := shortest.exponent + digits.length - 1
      if layout.plainFrom ≤ top ∧ top ≤ layout.plainTo then sign ++ plain digits top
      else sign ++ layout.scientific digits top
  | .infinite negative => if negative then ['-', 'i', 'n', 'f'] else ['i', 'n', 'f']
  | .notANumber => ['N', 'a', 'N']

end Layout

end HarnessSynthesis
