/-
# Rounding to doubles

A double stands for the interval of reals that round to it. The interval is kept as
`Decimal.interval` has it, in quarters of the last place, and whatever quotient lies in it is
rounded to the double. Quotients are compared as rational numbers, where a scale is a power with an
integer exponent and has one form for both signs.

A quotient below a power of two is first rounded on the finer grid below it, and the mantissa that
is too large by one bit is halved. This is the one case in which the exponent is not found at once.
`ofQuotient_spec` says of any quotient what comes of it: the nearest double in normal form, or an
infinity above the largest.
-/

import Mathlib.Algebra.Order.Field.Power
import Mathlib.Algebra.Order.Archimedean.Basic
import Mathlib.Data.Rat.Cast.Order
import Mathlib.Tactic.FieldSimp
import Mathlib.Tactic.Linarith
import Mathlib.Tactic.NormNum
import HarnessSynthesis.Number.Decimal

namespace HarnessSynthesis

namespace Binary64

/-! ## Scales -/

theorem natCast_pow_toNat (b : Nat) {e : Int} (h : 0 ≤ e) :
    ((Nat.pow b e.toNat : Nat) : ℚ) = (b : ℚ) ^ e := by
  obtain ⟨n, rfl⟩ := Int.eq_ofNat_of_zero_le h
  rw [Int.toNat_natCast, zpow_natCast]
  exact Nat.cast_pow b n

theorem natCast_pow_neg_toNat (b : Nat) {e : Int} (h : e ≤ 0) :
    ((Nat.pow b (-e).toNat : Nat) : ℚ) = ((b : ℚ) ^ e)⁻¹ := by
  rw [natCast_pow_toNat b (Int.neg_nonneg.2 h), zpow_neg]

/-- One of the two powers is one, and the other is the scale or its inverse. -/
theorem natCast_pow_div_pow (b : Nat) (e : Int) :
    ((Nat.pow b e.toNat : Nat) : ℚ) / (Nat.pow b (-e).toNat : Nat) = (b : ℚ) ^ e := by
  rcases Int.le_total 0 e with up | down
  · have none : (-e).toNat = 0 := by omega
    rw [natCast_pow_toNat b up, none, Nat.pow_eq, pow_zero, Nat.cast_one, div_one]
  · have none : e.toNat = 0 := by omega
    rw [natCast_pow_neg_toNat b down, none, Nat.pow_eq, pow_zero, Nat.cast_one, one_div, inv_inv]

theorem magnitude_eq (m : Nat) (e : Int) :
    0 < (magnitude m e).2 ∧ ((magnitude m e).1 / (magnitude m e).2 : ℚ) = m * 2 ^ e := by
  rw [magnitude]
  split
  · rename_i up
    refine ⟨Nat.one_pos, ?_⟩
    rw [Nat.cast_one, div_one, Nat.cast_mul, natCast_pow_toNat 2 up, Nat.cast_two]
  · rename_i down
    refine ⟨Nat.two_pow_pos _, ?_⟩
    rw [natCast_pow_neg_toNat 2 (Int.le_of_not_le down), Nat.cast_two, div_inv_eq_mul]

/-! ## Rounding to whole numbers -/

/-- Whether a rational is rounded to a natural number, a tie going to the even one. -/
structure Nearest (k : Nat) (y : ℚ) : Prop where
  low : (k : ℚ) - 1 / 2 ≤ y
  high : y ≤ k + 1 / 2
  tie : y = k - 1 / 2 ∨ y = k + 1 / 2 → k % 2 = 0

theorem roundQuotient_eq {n d k : Nat} (positive : 0 < d) (near : Nearest k (n / d)) :
    roundQuotient n d = k := by
  have size : (0 : ℚ) < d := Nat.cast_pos.2 positive
  have low : 2 * (d * k) ≤ 2 * n + d := by
    have h := near.low
    rw [le_div_iff₀ size] at h
    have : (2 * (d * k) : ℚ) ≤ 2 * n + d := by linarith
    exact_mod_cast this
  have high : 2 * n ≤ 2 * (d * k) + d := by
    have h := near.high
    rw [div_le_iff₀ size] at h
    have : (2 * n : ℚ) ≤ 2 * (d * k) + d := by linarith
    exact_mod_cast this
  have tie : 2 * (d * k) = 2 * n + d ∨ 2 * n = 2 * (d * k) + d → k % 2 = 0 := by
    intro h
    apply near.tie
    rw [div_eq_iff size.ne', div_eq_iff size.ne']
    refine h.imp (fun h => ?_) fun h => ?_
    · have : (2 * (d * k) : ℚ) = 2 * n + d := by exact_mod_cast h
      linarith
    · have : (2 * n : ℚ) = 2 * (d * k) + d := by exact_mod_cast h
      linarith
  have whole := Nat.div_add_mod n d
  have rest := Nat.mod_lt n positive
  -- The quotient is `k` or one less, since a step of it weighs `d`.
  have notAbove : n / d ≤ k := by
    by_contra above
    have step : d * (k + 1) ≤ d * (n / d) := Nat.mul_le_mul_left d (Nat.lt_of_not_le above)
    rw [Nat.mul_succ] at step
    omega
  have notBelow : k ≤ n / d + 1 := by
    by_contra below
    have step : d * (n / d + 1 + 1) ≤ d * k := Nat.mul_le_mul_left d (Nat.lt_of_not_le below)
    rw [Nat.mul_succ, Nat.mul_succ] at step
    omega
  simp only [roundQuotient]
  rcases Nat.eq_or_lt_of_le notAbove with same | less
  · rw [same] at whole ⊢
    split
    · rfl
    · rw [if_neg (by omega), if_pos (tie (Or.inr (by omega)))]
  · obtain rfl : k = n / d + 1 := by omega
    rw [Nat.mul_succ] at low high tie
    rw [if_neg (by omega)]
    split
    · rfl
    · have even := tie (Or.inl (by omega))
      rw [if_neg (by omega)]

/-! ## The exponent -/

theorem two_pow_log2_le {n : Nat} (positive : 0 < n) : (2 : ℚ) ^ (n.log2 : Int) ≤ n := by
  rw [zpow_natCast]
  exact_mod_cast Nat.log2_self_le positive.ne'

theorem lt_two_pow_log2_succ (n : Nat) : (n : ℚ) < 2 ^ ((n.log2 : Int) + 1) := by
  have bound : (n : ℚ) < 2 ^ (n.log2 + 1) := by exact_mod_cast Nat.lt_log2_self (n := n)
  exact_mod_cast bound

/-- The power of two that `floorLog2` tries is compared with the quotient itself. -/
theorem reached_iff {n d : Nat} (positive : 0 < d) (guess : Int) :
    (if 0 ≤ guess then d * Nat.pow 2 guess.toNat ≤ n else d ≤ n * Nat.pow 2 (-guess).toNat) ↔
      (2 : ℚ) ^ guess ≤ n / d := by
  have size : (0 : ℚ) < d := Nat.cast_pos.2 positive
  rw [le_div_iff₀ size]
  split
  · rename_i up
    have scale := natCast_pow_toNat 2 up
    rw [Nat.cast_two] at scale
    rw [← scale, mul_comm]
    exact_mod_cast Iff.rfl
  · rename_i down
    have power : (0 : ℚ) < 2 ^ guess := by positivity
    have scale := natCast_pow_neg_toNat 2 (Int.le_of_not_le down)
    rw [Nat.cast_two] at scale
    have moved : (2 : ℚ) ^ guess * d ≤ n ↔ (d : ℚ) ≤ n * (2 ^ guess)⁻¹ := by
      rw [← div_eq_mul_inv, le_div_iff₀ power, mul_comm]
    rw [moved, ← scale]
    exact_mod_cast Iff.rfl

theorem floorLog2_eq {n d : Nat} (hn : 0 < n) (hd : 0 < d) {f : Int} (low : (2 : ℚ) ^ f ≤ n / d)
    (high : (n / d : ℚ) < 2 ^ (f + 1)) : floorLog2 n d = f := by
  have two : (1 : ℚ) < 2 := one_lt_two
  have size : (0 : ℚ) < d := Nat.cast_pos.2 hd
  -- Both logarithms are off by less than one.
  have above : (n / d : ℚ) < 2 ^ ((n.log2 : Int) - d.log2 + 1) := by
    rw [div_lt_iff₀ size]
    calc (n : ℚ) < 2 ^ ((n.log2 : Int) + 1) := lt_two_pow_log2_succ n
      _ = 2 ^ ((n.log2 : Int) - d.log2 + 1) * 2 ^ (d.log2 : Int) := by
        rw [← zpow_add₀ two_ne_zero]
        congr 1
        omega
      _ ≤ 2 ^ ((n.log2 : Int) - d.log2 + 1) * d :=
        mul_le_mul_of_nonneg_left (two_pow_log2_le hd) (by positivity)
  have below : (2 : ℚ) ^ ((n.log2 : Int) - d.log2 - 1) < n / d := by
    rw [lt_div_iff₀ size]
    calc (2 : ℚ) ^ ((n.log2 : Int) - d.log2 - 1) * d
        < 2 ^ ((n.log2 : Int) - d.log2 - 1) * 2 ^ ((d.log2 : Int) + 1) :=
        mul_lt_mul_of_pos_left (lt_two_pow_log2_succ d) (by positivity)
      _ = 2 ^ (n.log2 : Int) := by
        rw [← zpow_add₀ two_ne_zero]
        congr 1
        omega
      _ ≤ n := two_pow_log2_le hn
  have under : f < (n.log2 : Int) - d.log2 + 1 :=
    (zpow_lt_zpow_iff_right₀ two).1 (low.trans_lt above)
  have beyond : (n.log2 : Int) - d.log2 - 1 < f + 1 :=
    (zpow_lt_zpow_iff_right₀ two).1 (below.trans high)
  simp only [floorLog2, reached_iff hd]
  split
  · rename_i reached
    have := (zpow_lt_zpow_iff_right₀ two).1 (reached.trans_lt high)
    omega
  · rename_i missed
    have := (zpow_lt_zpow_iff_right₀ two).1 (low.trans_lt (lt_of_not_ge missed))
    omega

/-! ## Rounding a quotient -/

theorem roundQuotient_scaled {n d k : Nat} (positive : 0 < d) {e : Int}
    (near : Nearest k (n / d / 2 ^ e)) :
    (if 0 ≤ e then roundQuotient n (d * Nat.pow 2 e.toNat)
      else roundQuotient (n * Nat.pow 2 (-e).toNat) d) = k := by
  split
  · rename_i up
    refine roundQuotient_eq (Nat.mul_pos positive (Nat.two_pow_pos _)) ?_
    rwa [Nat.cast_mul, natCast_pow_toNat 2 up, Nat.cast_two, ← div_div]
  · rename_i down
    refine roundQuotient_eq positive ?_
    rwa [Nat.cast_mul, natCast_pow_neg_toNat 2 (Int.le_of_not_le down), Nat.cast_two,
      mul_div_right_comm, ← div_eq_mul_inv]

/-- A quotient is rounded on the grid of its exponent, and a mantissa with one bit too many is
halved. -/
theorem ofQuotient_eq (negative : Bool) {n d k : Nat} (hn : 0 < n) (hd : 0 < d) {f : Int}
    (low : (2 : ℚ) ^ f ≤ n / d) (high : (n / d : ℚ) < 2 ^ (f + 1))
    (near : Nearest k (n / d / 2 ^ max (f - 52) minExponent)) :
    ofQuotient negative n d =
      if k = 2 ^ 53 then
        if maxExponent < max (f - 52) minExponent + 1 then .infinite negative
        else .finite negative (2 ^ 52) (max (f - 52) minExponent + 1)
      else
        if maxExponent < max (f - 52) minExponent then .infinite negative
        else .finite negative k (max (f - 52) minExponent) := by
  simp only [ofQuotient, if_neg hn.ne', floorLog2_eq hn hd low high, roundQuotient_scaled hd near]
  by_cases carried : k = 2 ^ 53
  · have carried' : k = Nat.pow 2 53 := carried
    simp only [if_pos carried, if_pos carried']
    rfl
  · have carried' : ¬ k = Nat.pow 2 53 := carried
    simp only [if_neg carried, if_neg carried']

/-- A mantissa and an exponent in normal form: the mantissa fills its 53 bits unless the exponent
is the least. -/
structure Normal (mantissa : Nat) (exponent : Int) : Prop where
  small : mantissa < 2 ^ 53
  least : minExponent ≤ exponent
  greatest : exponent ≤ maxExponent
  full : 2 ^ 52 ≤ mantissa ∨ exponent = minExponent

/-- Whether a double is a finite number in normal form, as every result of rounding is that does not
overflow. -/
def Proper : Binary64 → Prop
  | .finite _ mantissa exponent => Normal mantissa exponent
  | _ => False

end Binary64

namespace Decimal

/-- Whether a point lies in the interval, given in quarters of the last place. -/
structure Interval.Contains (i : Interval) (y : ℚ) : Prop where
  low : i.low ≤ y
  high : y ≤ i.high
  ends : y = i.low ∨ y = i.high → i.closed = true

end Decimal

namespace Binary64

open Decimal

variable {m : Nat} {e : Int} {z : ℚ}

theorem interval_low_of_full (full : m = 2 ^ 52) (above : minExponent < e) :
    ((interval m e).low : ℚ) = 4 * m - 1 := by
  rw [interval, if_pos ⟨full, above⟩, Nat.cast_sub (by omega)]
  push_cast
  rfl

theorem le_interval_low (positive : 0 < m) : (4 * m - 2 : ℚ) ≤ (interval m e).low := by
  have bound : 4 * m ≤ (interval m e).low + 2 := by
    rw [interval]
    dsimp only
    split <;> omega
  have : (4 * m : ℚ) ≤ (interval m e).low + 2 := by exact_mod_cast bound
  linarith

theorem interval_high : ((interval m e).high : ℚ) = 4 * m + 2 := by
  rw [interval]
  push_cast
  rfl

/-- What lies in the interval is nearest to the mantissa. -/
theorem nearest_of_contains (positive : 0 < m) (inside : (interval m e).Contains (4 * z)) :
    Nearest m z where
  low := by
    have := (le_interval_low positive).trans inside.low
    linarith
  high := by
    have := inside.high
    rw [interval_high] at this
    linarith
  tie := by
    intro h
    have closed : (interval m e).closed = true := by
      refine inside.ends (h.imp (fun h => ?_) fun h => ?_)
      · refine le_antisymm ?_ inside.low
        have := le_interval_low (e := e) positive
        linarith
      · rw [interval_high, h]
        ring
    exact of_decide_eq_true closed

theorem two_pow_mul_le_iff {x : ℚ} {k : Int} : (2 : ℚ) ^ (k + e) ≤ x ↔ 2 ^ k ≤ x / 2 ^ e := by
  rw [zpow_add₀ two_ne_zero, le_div_iff₀ (by positivity)]

theorem lt_two_pow_mul_iff {x : ℚ} {k : Int} : x < (2 : ℚ) ^ (k + e) ↔ x / 2 ^ e < 2 ^ k := by
  rw [zpow_add₀ two_ne_zero, div_lt_iff₀ (by positivity)]

theorem exists_exponent {x : ℚ} (positive : 0 < x) :
    ∃ f : Int, (2 : ℚ) ^ f ≤ x ∧ x < 2 ^ (f + 1) :=
  exists_mem_Ico_zpow positive one_lt_two

/-- The common case: the quotient's own exponent is that of the double. -/
theorem ofQuotient_of_nearest (negative : Bool) (normal : Normal m e) {n d : Nat} (hn : 0 < n)
    (hd : 0 < d) (near : Nearest m (n / d / 2 ^ e))
    (full : (2 : ℚ) ^ (52 : Int) ≤ n / d / 2 ^ e ∨ e = minExponent) :
    ofQuotient negative n d = .finite negative m e := by
  obtain ⟨f, low, high⟩ := exists_exponent (div_pos (Nat.cast_pos.2 hn) (Nat.cast_pos.2 hd))
  have under : (n / d / 2 ^ e : ℚ) < 2 ^ (53 : Int) := by
    have whole : (m : ℚ) + 1 ≤ 2 ^ (53 : Int) := by exact_mod_cast normal.small
    linarith [near.high]
  have notAbove : f ≤ 52 + e := by
    have := (zpow_lt_zpow_iff_right₀ one_lt_two).1 (low.trans_lt (lt_two_pow_mul_iff.2 under))
    omega
  have exponent : max (f - 52) minExponent = e := by
    rcases full with full | rfl
    · have := (zpow_lt_zpow_iff_right₀ one_lt_two).1 ((two_pow_mul_le_iff.2 full).trans_lt high)
      have := normal.least
      omega
    · omega
  have fits : ¬ maxExponent < e := not_lt.2 normal.greatest
  rw [ofQuotient_eq negative hn hd low high (k := m) (by rwa [exponent]),
    if_neg normal.small.ne, exponent, if_neg fits]

/-- Below a power of two the grid is twice as fine, and the mantissa has one bit too many. -/
theorem ofQuotient_of_carry (negative : Bool) (normal : Normal (2 ^ 52) e) {n d : Nat} (hn : 0 < n)
    (hd : 0 < d) (above : minExponent < e) (low : (2 : ℚ) ^ (52 : Int) - 1 / 4 ≤ n / d / 2 ^ e)
    (high : (n / d / 2 ^ e : ℚ) < 2 ^ (52 : Int)) :
    ofQuotient negative n d = .finite negative (2 ^ 52) e := by
  have finer : (n / d / 2 ^ (e - 1) : ℚ) = 2 * (n / d / 2 ^ e) := by
    rw [zpow_sub_one₀ two_ne_zero]
    field_simp
  have near : Nearest (2 ^ 53) (n / d / 2 ^ (e - 1)) := by
    rw [finer]
    refine ⟨?_, ?_, fun _ => rfl⟩
    · push_cast
      linarith
    · push_cast
      linarith
  have bottom : (2 : ℚ) ^ (51 + e) ≤ n / d := by
    refine two_pow_mul_le_iff.2 (le_trans ?_ low)
    norm_num
  have top : (n / d : ℚ) < 2 ^ (51 + e + 1) := by
    rw [show 51 + e + 1 = 52 + e by omega]
    exact lt_two_pow_mul_iff.2 high
  have exponent : max (51 + e - 52) minExponent = e - 1 := by omega
  have fits : ¬ maxExponent < e := not_lt.2 normal.greatest
  rw [ofQuotient_eq negative hn hd bottom top (k := 2 ^ 53) (by rwa [exponent]), if_pos rfl,
    exponent, Int.sub_add_cancel, if_neg fits]

/-- Whatever lies in the interval of a double is rounded to it. -/
theorem ofQuotient_of_contains (negative : Bool) (normal : Normal m e) (positive : 0 < m)
    {n d : Nat} (hd : 0 < d) (inside : (interval m e).Contains (4 * (n / d / 2 ^ e))) :
    ofQuotient negative n d = .finite negative m e := by
  have near := nearest_of_contains positive inside
  have hn : 0 < n := by
    by_contra zero
    have one : (1 : ℚ) ≤ m := Nat.one_le_cast.2 positive
    have low := near.low
    rw [Nat.eq_zero_of_not_pos zero, Nat.cast_zero, zero_div, zero_div] at low
    linarith
  by_cases full : (2 : ℚ) ^ (52 : Int) ≤ n / d / 2 ^ e ∨ e = minExponent
  · exact ofQuotient_of_nearest negative normal hn hd near full
  · obtain ⟨below, least⟩ := not_or.1 full
    have above : minExponent < e := lt_of_le_of_ne normal.least (Ne.symm least)
    have filled : 2 ^ 52 ≤ m := normal.full.resolve_right least
    obtain rfl : m = 2 ^ 52 := by
      have : (m : ℚ) < 2 ^ (52 : Int) + 1 := by linarith [near.low]
      have : m < 2 ^ 52 + 1 := by exact_mod_cast this
      omega
    refine ofQuotient_of_carry negative normal hn hd above ?_ (not_le.1 below)
    have low := inside.low
    rw [interval_low_of_full rfl above] at low
    push_cast at low
    norm_num at low ⊢
    linarith

/-! ## What rounding gives -/

theorem exists_nearest (h : 0 ≤ z) : ∃ k, Nearest k z := by
  have low := Nat.floor_le h
  have high := Nat.lt_floor_add_one z
  rcases lt_trichotomy z (⌊z⌋₊ + 1 / 2) with down | tie | up
  · exact ⟨⌊z⌋₊, by linarith, by linarith, by rintro (end_ | end_) <;> linarith⟩
  · rcases Nat.mod_two_eq_zero_or_one ⌊z⌋₊ with even | odd
    · exact ⟨⌊z⌋₊, by linarith, by linarith, fun _ => even⟩
    · refine ⟨⌊z⌋₊ + 1, ?_, ?_, fun _ => by omega⟩
      · push_cast
        linarith
      · push_cast
        linarith
  · refine ⟨⌊z⌋₊ + 1, ?_, ?_, ?_⟩
    · push_cast
      linarith
    · push_cast
      linarith
    · push_cast
      rintro (end_ | end_) <;> linarith

/-- Rounding does not pass a whole number. -/
theorem Nearest.le_of_le {k K : Nat} (near : Nearest k z) (bound : z ≤ K) : k ≤ K := by
  have below : (k : ℚ) < (K + 1 : Nat) := by
    push_cast
    linarith [near.low]
  exact Nat.lt_succ_iff.1 (Nat.cast_lt.1 below)

theorem Nearest.le_of_ge {k K : Nat} (near : Nearest k z) (bound : K ≤ z) : K ≤ k := by
  have above : (K : ℚ) < (k + 1 : Nat) := by
    push_cast
    linarith [near.high]
  exact Nat.lt_succ_iff.1 (Nat.cast_lt.1 above)

/-- The largest double. -/
def largest : ℚ :=
  (2 ^ 53 - 1) * 2 ^ maxExponent

theorem natCast_le_largest {n : Nat} (bound : n ≤ (2 ^ 53 - 1) * Nat.pow 2 maxExponent.toNat) :
    (n : ℚ) ≤ largest := by
  have scale := natCast_pow_toNat 2 (show 0 ≤ maxExponent by decide)
  have mantissa : ((2 ^ 53 - 1 : Nat) : ℚ) = 2 ^ 53 - 1 := by norm_num
  rw [Nat.cast_two] at scale
  calc (n : ℚ) ≤ ((2 ^ 53 - 1) * Nat.pow 2 maxExponent.toNat : Nat) := Nat.cast_le.2 bound
    _ = largest := by rw [Nat.cast_mul, scale, mantissa, largest]

theorem largest_lt {x : ℚ} (beyond : maxExponent ≤ e) (big : (2 ^ 53 - 1 : ℚ) < x / 2 ^ e) :
    largest < x := by
  have scale : (0 : ℚ) < 2 ^ e := by positivity
  have power : (2 : ℚ) ^ maxExponent ≤ 2 ^ e := zpow_le_zpow_right₀ one_le_two beyond
  calc largest ≤ (2 ^ 53 - 1) * 2 ^ e := mul_le_mul_of_nonneg_left power (by norm_num)
    _ < x / 2 ^ e * 2 ^ e := mul_lt_mul_of_pos_right big scale
    _ = x := div_mul_cancel₀ x scale.ne'

/-- A mantissa with one bit too many is halved. -/
theorem Nearest.halve (near : Nearest (2 ^ 53) z) (under : z < 2 ^ 53) :
    Nearest (2 ^ 52) (z / 2) := by
  have low := near.low
  push_cast at low
  refine ⟨?_, ?_, fun _ => rfl⟩
  · push_cast
    linarith
  · push_cast
    linarith

/-- A quotient is rounded to the nearest double in normal form, unless it is above all doubles. -/
theorem ofQuotient_spec (negative : Bool) {n d : Nat} (hn : 0 < n) (hd : 0 < d) :
    (∃ m e, ofQuotient negative n d = .finite negative m e ∧ Normal m e ∧
      Nearest m (n / d / 2 ^ e)) ∨
      ofQuotient negative n d = .infinite negative ∧ largest < n / d := by
  have positive : (0 : ℚ) < n / d := div_pos (Nat.cast_pos.2 hn) (Nat.cast_pos.2 hd)
  obtain ⟨f, low, high⟩ := exists_exponent positive
  generalize exponent : max (f - 52) minExponent = e
  obtain ⟨k, near⟩ := exists_nearest (z := n / d / 2 ^ e) (by positivity)
  have rounded := ofQuotient_eq negative hn hd low high (k := k) (by rwa [exponent])
  rw [exponent] at rounded
  have least : minExponent ≤ e := by omega
  have under : (n / d / 2 ^ e : ℚ) < 2 ^ (53 : Int) := by
    have top : f + 1 ≤ 53 + e := by omega
    exact lt_two_pow_mul_iff.1 (high.trans_le (zpow_le_zpow_right₀ one_le_two top))
  have full : (2 : ℚ) ^ (52 : Int) ≤ n / d / 2 ^ e ∨ e = minExponent := by
    by_cases bottom : e = minExponent
    · exact Or.inr bottom
    · obtain rfl : f = 52 + e := by omega
      exact Or.inl (two_pow_mul_le_iff.1 low)
  by_cases carried : k = 2 ^ 53
  · subst carried
    rw [if_pos rfl] at rounded
    split at rounded
    · rename_i beyond
      refine Or.inr ⟨rounded, largest_lt (Int.lt_add_one_iff.1 beyond) ?_⟩
      have close := near.low
      push_cast at close
      linarith
    · rename_i within
      refine Or.inl ⟨2 ^ 52, e + 1, rounded,
        ⟨by norm_num, by omega, not_lt.1 within, Or.inl le_rfl⟩, ?_⟩
      rw [zpow_add_one₀ two_ne_zero, ← div_div]
      exact near.halve (by exact_mod_cast under)
  · rw [if_neg carried] at rounded
    have small : k < 2 ^ 53 :=
      lt_of_le_of_ne (near.le_of_le (by exact_mod_cast under.le)) carried
    split at rounded
    · rename_i beyond
      have filled := full.resolve_right (by rintro rfl; exact absurd beyond (by decide))
      -- on the finer grid below, the quotient fills 53 bits
      refine Or.inr ⟨rounded, largest_lt (Int.le_sub_one_of_lt beyond) ?_⟩
      rw [zpow_sub_one₀ two_ne_zero, ← div_div, div_inv_eq_mul]
      norm_num at filled ⊢
      linarith
    · rename_i within
      refine Or.inl ⟨k, e, rounded, ⟨small, least, not_lt.1 within, ?_⟩, near⟩
      exact full.imp_left fun full => near.le_of_ge (by exact_mod_cast full)

theorem proper_zero (negative : Bool) : (zero negative).Proper :=
  ⟨by norm_num, le_rfl, by decide, Or.inr rfl⟩

theorem proper_ofQuotient (negative : Bool) {n d : Nat} (hd : 0 < d)
    (bound : (n / d : ℚ) ≤ largest) : (ofQuotient negative n d).Proper := by
  rcases Nat.eq_zero_or_pos n with rfl | hn
  · exact proper_zero negative
  · rcases ofQuotient_spec negative hn hd with ⟨m, e, rounded, normal, -⟩ | ⟨-, above⟩
    · rw [rounded]
      exact normal
    · exact absurd bound (not_le.2 above)

theorem proper_of_isFinite {negative : Bool} {n d : Nat} (hd : 0 < d)
    (finite : (ofQuotient negative n d).isFinite = true) : (ofQuotient negative n d).Proper := by
  rcases Nat.eq_zero_or_pos n with rfl | hn
  · exact proper_zero negative
  · rcases ofQuotient_spec negative hn hd with ⟨m, e, rounded, normal, -⟩ | ⟨rounded, -⟩
    · rw [rounded]
      exact normal
    · rw [rounded] at finite
      cases finite

theorem proper_opposite {b : Binary64} (proper : b.Proper) : b.opposite.Proper := by
  cases b with
  | finite negative m e => exact proper
  | infinite negative => exact proper
  | notANumber => exact proper

theorem Normal.le_largest (normal : Normal m e) : (m * 2 ^ e : ℚ) ≤ largest := by
  have small : (m : ℚ) ≤ 2 ^ 53 - 1 := by
    have : (m : ℚ) + 1 ≤ 2 ^ 53 := by exact_mod_cast normal.small
    linarith
  exact mul_le_mul small (zpow_le_zpow_right₀ one_le_two normal.greatest) (by positivity)
    (by norm_num)

/-- What is one at least is not rounded to less. -/
theorem Normal.one_le (normal : Normal m e) (near : Nearest m (z / 2 ^ e)) (one : 1 ≤ z) :
    (1 : ℚ) ≤ m * 2 ^ e := by
  rcases le_or_gt e 0 with down | up
  · have scale := natCast_pow_neg_toNat 2 down
    rw [Nat.cast_two] at scale
    have positive : (0 : ℚ) < 2 ^ e := by positivity
    have reached : Nat.pow 2 (-e).toNat ≤ m := by
      apply near.le_of_ge
      rw [scale, ← one_div]
      exact div_le_div_of_nonneg_right one positive.le
    have reached : ((2 : ℚ) ^ e)⁻¹ ≤ m := by
      rw [← scale]
      exact_mod_cast reached
    calc (1 : ℚ) = (2 ^ e)⁻¹ * 2 ^ e := (inv_mul_cancel₀ positive.ne').symm
      _ ≤ m * 2 ^ e := mul_le_mul_of_nonneg_right reached positive.le
  · have filled := normal.full.resolve_right (by rintro rfl; exact absurd up (by decide))
    have mantissa : (1 : ℚ) ≤ m := Nat.one_le_cast.2 (by omega)
    have scale : (1 : ℚ) ≤ 2 ^ e := one_le_zpow₀ one_le_two up.le
    exact one_le_mul_of_one_le_of_one_le mantissa scale

end Binary64

end HarnessSynthesis
