/-
# Shortest decimals

The decimal that is written for a double reads back as the double: it lies in the double's interval,
and a decimal in the interval, correctly rounded, is the double. A grid of decimals has a hit as
soon as its step is shorter than the interval. With seventeen digits it always is, since a mantissa
is below ten to the sixteenth, so the search ends in time.
-/

import Mathlib.Data.Nat.Cast.Order.Field
import HarnessSynthesis.Proofs.Number.Rounding

namespace HarnessSynthesis

/-! ## Numbers of digits -/

namespace Text

theorem lt_pow_length_ofNat (n : Nat) : n < 10 ^ (ofNat n).length := by
  induction n using Nat.strongRecOn with
  | ind n ih =>
    rw [ofNat]
    split
    · rw [List.length_singleton]
      omega
    · have front := ih (n / 10) (by omega)
      rw [List.length_append, List.length_singleton, Nat.pow_succ]
      omega

theorem length_ofNat_pos (n : Nat) : 0 < (ofNat n).length := by
  rw [ofNat]
  split
  · exact Nat.one_pos
  · rw [List.length_append]
    exact Nat.succ_pos _

theorem pow_le_of_length_ofNat {n : Nat} (positive : 0 < n) :
    10 ^ ((ofNat n).length - 1) ≤ n := by
  induction n using Nat.strongRecOn with
  | ind n ih =>
    rw [ofNat]
    split
    · exact positive
    · have front := ih (n / 10) (by omega) (by omega)
      have nonempty := length_ofNat_pos (n / 10)
      have power := Nat.pow_succ 10 ((ofNat (n / 10)).length - 1)
      rw [Nat.succ_eq_add_one, Nat.sub_add_cancel nonempty] at power
      rw [List.length_append, List.length_singleton, Nat.add_sub_cancel, power]
      omega

end Text

open Binary64

namespace Decimal

/-- What a decimal denotes. -/
def value (d : Decimal) : ℚ :=
  d.digits * 10 ^ d.exponent

/-! ## The first digit -/

/-- The place of the first digit is no lower than the greatest power of ten below the number. -/
theorem zpow_floorLog10_le {n d : Nat} (hn : 0 < n) (hd : 0 < d) :
    (10 : ℚ) ^ floorLog10 n d ≤ n / d := by
  have size : (0 : ℚ) < d := Nat.cast_pos.2 hd
  rw [floorLog10]
  split
  · rename_i whole
    have digits := Text.length_ofNat_pos (n / d)
    have exponent : ((Text.ofNat (n / d)).length : Int) - 1 =
        ((Text.ofNat (n / d)).length - 1 : Nat) := by
      omega
    have power : ((10 ^ ((Text.ofNat (n / d)).length - 1) : Nat) : ℚ) ≤ (n / d : Nat) :=
      Nat.cast_le.2 (Text.pow_le_of_length_ofNat (Nat.div_pos whole hd))
    rw [exponent, zpow_natCast]
    exact_mod_cast power.trans Nat.cast_div_le
  · rename_i fraction
    -- The inverse of the number, rounded up, has no more digits than the power.
    have inverse := Text.lt_pow_length_ofNat ((d + n - 1) / n - 1)
    have split := Nat.div_add_mod (d + n - 1) n
    have rest := Nat.mod_lt (d + n - 1) hn
    have digits : (d + n - 1) / n ≤ 10 ^ (Text.ofNat ((d + n - 1) / n - 1)).length := by omega
    have power := Nat.mul_le_mul_left n digits
    have bound : (d : ℚ) ≤ n * 10 ^ (Text.ofNat ((d + n - 1) / n - 1)).length := by
      have : d ≤ n * 10 ^ (Text.ofNat ((d + n - 1) / n - 1)).length := by omega
      exact_mod_cast this
    have positive : (0 : ℚ) < 10 ^ (Text.ofNat ((d + n - 1) / n - 1)).length := by positivity
    rw [Int.negOfNat_eq, Int.ofNat_eq_natCast, zpow_neg, zpow_natCast, le_div_iff₀ size,
      inv_mul_le_iff₀ positive, mul_comm]
    exact bound

/-! ## One grid -/

section Grid

variable {m : Nat} {e : Int} {unit step : Nat}

theorem Interval.holds_iff (i : Interval) (positive : 0 < unit) (point : Nat) :
    i.holds unit point = true ↔ i.Contains (point / unit) := by
  have size : (0 : ℚ) < unit := Nat.cast_pos.2 positive
  have below : (i.low : ℚ) < point / unit ↔ i.low * unit < point := by
    rw [lt_div_iff₀ size]
    exact_mod_cast Iff.rfl
  have above : (point / unit : ℚ) < i.high ↔ point < i.high * unit := by
    rw [div_lt_iff₀ size]
    exact_mod_cast Iff.rfl
  have low : (i.low : ℚ) ≤ point / unit ↔ i.low * unit ≤ point := by
    rw [le_div_iff₀ size]
    exact_mod_cast Iff.rfl
  have high : (point / unit : ℚ) ≤ i.high ↔ point ≤ i.high * unit := by
    rw [div_le_iff₀ size]
    exact_mod_cast Iff.rfl
  rw [Interval.holds]
  split
  · rename_i closed
    rw [Bool.and_eq_true, decide_eq_true_eq, decide_eq_true_eq, ← low, ← high]
    exact ⟨fun h => ⟨h.1, h.2, fun _ => closed⟩, fun h => ⟨h.low, h.high⟩⟩
  · rename_i opened
    rw [Bool.and_eq_true, decide_eq_true_eq, decide_eq_true_eq, ← below, ← above]
    refine ⟨fun h => ⟨h.1.le, h.2.le, fun ends => ?_⟩, fun h => ⟨?_, ?_⟩⟩
    · exact absurd ends (not_or.2 ⟨h.1.ne', h.2.ne⟩)
    · exact lt_of_le_of_ne h.low fun same => opened (h.ends (Or.inl same.symm))
    · exact lt_of_le_of_ne h.high fun same => opened (h.ends (Or.inr same))

theorem Interval.contains_of_between {i : Interval} {y : ℚ} (low : i.low < y) (high : y < i.high) :
    i.Contains y :=
  ⟨low.le, high.le, fun ends => absurd ends (not_or.2 ⟨low.ne', high.ne⟩)⟩

/-- A hit is in the interval and is not zero. -/
theorem holds_of_onGrid {tie : TieRule} {i : Interval} {k : Nat}
    (h : onGrid tie i unit step = some k) : i.holds unit (k * step) = true ∧ k ≠ 0 := by
  unfold onGrid at h
  dsimp only at h
  split at h
  · rename_i lower upper
    rw [Bool.and_eq_true, bne_iff_ne] at lower
    have either : k = i.value * unit / step ∨ k = i.value * unit / step + 1 := by
      split at h
      · exact Or.inl (Option.some.inj h).symm
      · split at h
        · exact Or.inr (Option.some.inj h).symm
        · split at h
          · split at h
            · exact Or.inl (Option.some.inj h).symm
            · exact Or.inr (Option.some.inj h).symm
          · exact Or.inr (Option.some.inj h).symm
    rcases either with rfl | rfl
    · exact lower
    · exact ⟨upper, Nat.succ_ne_zero _⟩
  · rename_i lower _
    rw [Bool.and_eq_true, bne_iff_ne] at lower
    cases h
    exact lower
  · rename_i _ upper
    cases h
    exact ⟨upper, Nat.succ_ne_zero _⟩
  · cases h

/-- Neighbours that both miss are the only way for a grid to have no hit. -/
theorem not_holds_of_onGrid {tie : TieRule} {i : Interval}
    (h : onGrid tie i unit step = none) :
    i.holds unit ((i.value * unit / step + 1) * step) = false ∧
      (i.value * unit / step ≠ 0 → i.holds unit (i.value * unit / step * step) = false) := by
  unfold onGrid at h
  dsimp only at h
  split at h
  · split at h
    · cases h
    · split at h
      · cases h
      · split at h
        · split at h <;> cases h
        · cases h
  · cases h
  · cases h
  · rename_i lower upper
    refine ⟨upper, fun nonzero => ?_⟩
    rw [Bool.and_eq_false_iff, bne_eq_false_iff_eq] at lower
    exact lower.resolve_right nonzero

/-- A grid whose step is shorter than the interval has a hit. -/
theorem onGrid_ne_none (tie : TieRule) (positive : 0 < m) (hu : 0 < unit) (hs : 0 < step)
    (fine : ((interval m e).low : ℚ) + step / unit < 4 * m + 2) :
    onGrid tie (interval m e) unit step ≠ none := by
  intro missed
  obtain ⟨upper, lower⟩ := not_holds_of_onGrid missed
  have size : (0 : ℚ) < unit := Nat.cast_pos.2 hu
  have value : (interval m e).value = 4 * m := rfl
  rw [value] at upper lower
  generalize below : 4 * m * unit / step = k at upper lower
  have under : (k * step / unit : ℚ) ≤ 4 * m := by
    rw [div_le_iff₀ size, ← below]
    exact_mod_cast Nat.div_mul_le_self (4 * m * unit) step
  have beyond : (4 * m : ℚ) < (k + 1) * step / unit := by
    rw [lt_div_iff₀ size, ← below]
    have next := Nat.lt_mul_div_succ (4 * m * unit) hs
    rw [Nat.mul_comm step] at next
    exact_mod_cast next
  have bottom := le_interval_low (e := e) positive
  have start : ((interval m e).low : ℚ) < 4 * m := by
    have : (interval m e).low < 4 * m := by
      rw [interval]
      dsimp only
      split <;> omega
    exact_mod_cast this
  have first : (1 : ℚ) ≤ m := Nat.one_le_cast.2 positive
  have apart : ((k + 1) * step / unit : ℚ) = k * step / unit + step / unit := by ring
  -- The upper neighbour is too far, so the lower one is near enough.
  have far : (4 * m + 2 : ℚ) ≤ (k + 1) * step / unit := by
    by_contra near
    have hit : (interval m e).holds unit ((k + 1) * step) = true := by
      rw [Interval.holds_iff _ hu]
      push_cast
      refine Interval.contains_of_between (start.trans beyond) ?_
      rw [interval_high]
      exact not_le.1 near
    rw [upper] at hit
    cases hit
  have near : ((interval m e).low : ℚ) < k * step / unit := by linarith
  have nonzero : k ≠ 0 := by
    rintro rfl
    rw [Nat.cast_zero, zero_mul, zero_div] at near
    linarith
  have hit : (interval m e).holds unit (k * step) = true := by
    rw [Interval.holds_iff _ hu]
    push_cast
    refine Interval.contains_of_between near (under.trans_lt ?_)
    rw [interval_high]
    linarith
  rw [lower nonzero] at hit
  cases hit

end Grid

/-! ## The search -/

section Search

variable {m : Nat} {e : Int} {tie : TieRule}

/-- Points of the grid at a decimal place, in the measure of the interval. -/
theorem step_div_unit (place scale : Int) :
    ((Nat.pow 10 place.toNat * Nat.pow 2 (-scale).toNat : Nat) : ℚ) /
      (Nat.pow 2 scale.toNat * Nat.pow 10 (-place).toNat : Nat) = 10 ^ place / 2 ^ scale := by
  have tens := natCast_pow_div_pow 10 place
  have twos := natCast_pow_div_pow 2 scale
  rw [Nat.cast_two] at twos
  rw [Nat.cast_ofNat] at tens
  rw [← tens, ← twos, Nat.cast_mul, Nat.cast_mul, div_div_eq_mul_div, div_mul_eq_mul_div, div_div,
    mul_comm ((Nat.pow 2 scale.toNat : Nat) : ℚ)]

theorem grid_positive (place scale : Int) :
    0 < Nat.pow 2 scale.toNat * Nat.pow 10 (-place).toNat :=
  Nat.mul_pos (Nat.pow_pos (by decide)) (Nat.pow_pos (by decide))

/-- Whether a decimal is not zero and lies in the interval of a double. -/
structure ReadsAs (m : Nat) (e : Int) (d : Decimal) : Prop where
  nonzero : d.digits ≠ 0
  inside : (interval m e).Contains (4 * (d.value / 2 ^ e))

theorem ReadsAs.of_value_eq {d d' : Decimal} (h : ReadsAs m e d) (nonzero : d'.digits ≠ 0)
    (same : d'.value = d.value) : ReadsAs m e d' :=
  ⟨nonzero, same ▸ h.inside⟩

theorem four_mul_div_two_zpow (x : ℚ) (e : Int) : x / 2 ^ (e - 2) = 4 * (x / 2 ^ e) := by
  rw [zpow_sub₀ two_ne_zero, div_div_eq_mul_div, mul_comm x, mul_div_assoc]
  norm_num

theorem readsAs_of_onGrid {place : Int} {k : Nat}
    (h : onGrid tie (interval m e) (Nat.pow 2 (e - 2).toNat * Nat.pow 10 (-place).toNat)
      (Nat.pow 10 place.toNat * Nat.pow 2 (-(e - 2)).toNat) = some k) :
    ReadsAs m e ⟨k, place⟩ := by
  obtain ⟨hit, nonzero⟩ := holds_of_onGrid h
  refine ⟨nonzero, ?_⟩
  rw [Interval.holds_iff _ (grid_positive place (e - 2)), Nat.cast_mul, mul_div_assoc,
    step_div_unit, ← mul_div_assoc, four_mul_div_two_zpow] at hit
  exact hit

/-- On the grid of seventeen digits the step is shorter than every interval: the mantissa is below
ten to the sixteenth, and below two fifths of it where the interval is the narrow one. -/
theorem step_lt_of_seventeen (positive : 0 < m) (small : m < 2 ^ 53) {top : Int}
    (first : (10 : ℚ) ^ top ≤ m * 2 ^ e) :
    ((interval m e).low : ℚ) + 10 ^ (top - 16) / 2 ^ (e - 2) < 4 * m + 2 := by
  have power : (0 : ℚ) < 2 ^ e := by positivity
  have step : (10 : ℚ) ^ (top - 16) / 2 ^ (e - 2) ≤ 4 * (m / 10 ^ (16 : Int)) := by
    rw [four_mul_div_two_zpow, zpow_sub₀ (by norm_num), div_right_comm]
    refine mul_le_mul_of_nonneg_left ?_ (by norm_num)
    refine div_le_div_of_nonneg_right ?_ (by positivity)
    rwa [div_le_iff₀ power]
  have mantissa : (m : ℚ) + 1 ≤ 2 ^ (53 : Int) := by exact_mod_cast small
  by_cases narrow : m = Nat.pow 2 52 ∧ minExponent < e
  · have full : m = 2 ^ 52 := narrow.1
    rw [interval_low_of_full full narrow.2]
    have half : (m : ℚ) = 2 ^ (52 : Int) := by exact_mod_cast full
    norm_num at step half
    linarith
  · have low : (interval m e).low + 2 = 4 * m := by
      rw [interval]
      dsimp only
      rw [if_neg narrow]
      omega
    have low' : ((interval m e).low : ℚ) + 2 = 4 * m := by exact_mod_cast low
    norm_num at step mantissa
    linarith

/-- Seventeen digits suffice. -/
theorem readsAs_search (positive : 0 < m) (small : m < 2 ^ 53) {top : Int}
    (first : (10 : ℚ) ^ top ≤ m * 2 ^ e) (fuel count : Nat) (enough : count + fuel = 17) :
    ReadsAs m e (search tie (interval m e) e top (fuel + 1) count) := by
  induction fuel generalizing count with
  | zero =>
    obtain rfl : count = 17 := enough
    rw [search]
    split
    · rename_i hit
      exact readsAs_of_onGrid hit
    · rename_i missed
      have place : top - (17 : Nat) + 1 = top - 16 := by omega
      have steps : 0 < Nat.pow 10 (top - 16).toNat * Nat.pow 2 (-(e - 2)).toNat :=
        Nat.mul_pos (Nat.pow_pos (by decide)) (Nat.pow_pos (by decide))
      rw [place] at missed
      refine absurd missed (onGrid_ne_none tie positive (grid_positive _ _) steps ?_)
      rw [step_div_unit]
      exact step_lt_of_seventeen positive small first
  | succ fuel ih =>
    rw [search]
    split
    · rename_i hit
      exact readsAs_of_onGrid hit
    · exact ih (count + 1) (by omega)

theorem readsAs_strip {d : Decimal} (h : ReadsAs m e d) (fuel : Nat) :
    ReadsAs m e (strip fuel d) := by
  fun_induction strip fuel d with
  | case1 d => exact h
  | case2 fuel d zero ih =>
    have whole : d.digits = d.digits / 10 * 10 := by omega
    have same : Decimal.value ⟨d.digits / 10, d.exponent + 1⟩ = d.value := by
      have digits : (d.digits : ℚ) = (d.digits / 10 : Nat) * 10 := by exact_mod_cast whole
      rw [Decimal.value, Decimal.value, digits, zpow_add_one₀ (by norm_num)]
      ring
    refine ih (h.of_value_eq ?_ same)
    intro none
    have tenth : d.digits / 10 = 0 := none
    rw [tenth] at whole
    exact zero.1 whole
  | case3 fuel d other => exact h

/-- The shortest decimal of a double lies in its interval. -/
theorem readsAs_shortest (positive : 0 < m) (small : m < 2 ^ 53) :
    ReadsAs m e (shortest tie m e) := by
  obtain ⟨hd, size⟩ := magnitude_eq m e
  have hn : 0 < (magnitude m e).1 := by
    by_contra zero
    have first : (0 : ℚ) < m := Nat.cast_pos.2 positive
    have denoted : (0 : ℚ) < m * 2 ^ e := by positivity
    rw [← size, Nat.eq_zero_of_not_pos zero, Nat.cast_zero, zero_div] at denoted
    exact lt_irrefl _ denoted
  refine readsAs_strip (readsAs_search positive small ?_ 16 1 rfl) 20
  rw [← size]
  exact zpow_floorLog10_le hn hd

end Search

end Decimal

namespace Binary64

open Decimal

section OfDecimal

variable {m : Nat} {e : Int} {d : Decimal}

theorem two_zpow_lt_ten_zpow {k l : Int} (h : k ≤ 3 * l) (positive : 0 < l) :
    (2 : ℚ) ^ k < 10 ^ l := by
  calc (2 : ℚ) ^ k ≤ 2 ^ (3 * l) := zpow_le_zpow_right₀ one_le_two h
    _ = 8 ^ l := by
      rw [zpow_mul]
      norm_num
    _ < 10 ^ l := zpow_lt_zpow_left₀ positive (by norm_num) (by norm_num)

/-- No decimal in the interval of a double is beyond the scales that are decided at once. -/
theorem value_bounds (normal : Normal m e) (positive : 0 < m) (h : ReadsAs m e d) :
    (2 : ℚ) ^ (-1075 : Int) ≤ d.value ∧ d.value < 2 ^ (1024 : Int) := by
  have near := nearest_of_contains positive h.inside
  constructor
  · have half : (2 : ℚ) ^ (-1 + e) ≤ d.value := by
      have first : (1 : ℚ) ≤ m := Nat.one_le_cast.2 positive
      rw [two_pow_mul_le_iff, zpow_neg_one]
      linarith [near.low]
    have exponent : (-1075 : Int) ≤ -1 + e := by
      have := normal.least
      rw [minExponent] at this
      omega
    exact (zpow_le_zpow_right₀ one_le_two exponent).trans half
  · have under : d.value < (2 : ℚ) ^ (53 + e) := by
      have whole : (m : ℚ) + 1 ≤ 2 ^ (53 : Int) := by exact_mod_cast normal.small
      rw [lt_two_pow_mul_iff]
      linarith [near.high]
    have exponent : 53 + e ≤ 1024 := by
      have := normal.greatest
      rw [maxExponent] at this
      omega
    exact under.trans_le (zpow_le_zpow_right₀ one_le_two exponent)

/-- A decimal in the interval of a double, correctly rounded, is the double. -/
theorem ofDecimal_of_readsAs (negative : Bool) (normal : Normal m e) (positive : 0 < m)
    (h : ReadsAs m e d) : ofDecimal negative d.digits d.exponent = .finite negative m e := by
  obtain ⟨low, high⟩ := value_bounds normal positive h
  have digits : (1 : ℚ) ≤ d.digits := Nat.one_le_cast.2 (Nat.pos_of_ne_zero h.nonzero)
  have notLarge : ¬ 400 < d.exponent := by
    intro large
    have above : (10 : ℚ) ^ (400 : Int) ≤ d.value :=
      (zpow_le_zpow_right₀ (by norm_num) large.le).trans
        (le_mul_of_one_le_left (by positivity) digits)
    have scales : (2 : ℚ) ^ (1024 : Int) < 10 ^ (400 : Int) :=
      two_zpow_lt_ten_zpow (by decide) (by decide)
    exact lt_irrefl _ (high.trans (scales.trans_le above))
  have notSmall : ¬ ((Text.ofNat d.digits).length : Int) + d.exponent < -400 := by
    intro tiny
    have count : (d.digits : ℚ) < 10 ^ ((Text.ofNat d.digits).length : Int) := by
      exact_mod_cast Text.lt_pow_length_ofNat d.digits
    have below : d.value < (10 : ℚ) ^ (-400 : Int) := by
      calc d.value
          < 10 ^ ((Text.ofNat d.digits).length : Int) * 10 ^ d.exponent :=
          mul_lt_mul_of_pos_right count (by positivity)
        _ = 10 ^ (((Text.ofNat d.digits).length : Int) + d.exponent) :=
          (zpow_add₀ (by norm_num) _ _).symm
        _ ≤ 10 ^ (-400 : Int) := zpow_le_zpow_right₀ (by norm_num) tiny.le
    have scales : (10 : ℚ) ^ (-400 : Int) < 2 ^ (-1075 : Int) := by
      rw [zpow_neg, zpow_neg]
      exact inv_strictAnti₀ (by positivity) (two_zpow_lt_ten_zpow (by decide) (by decide))
    exact lt_irrefl _ (low.trans_lt (below.trans scales))
  have inside := h.inside
  rw [ofDecimal, if_neg h.nonzero, if_neg notLarge, if_neg notSmall]
  split
  · rename_i up
    refine ofQuotient_of_contains negative normal positive Nat.one_pos ?_
    rw [Nat.cast_mul, natCast_pow_toNat 10 up, Nat.cast_one, div_one, Nat.cast_ofNat]
    exact inside
  · rename_i down
    refine ofQuotient_of_contains negative normal positive (Nat.pow_pos (by decide)) ?_
    rw [natCast_pow_neg_toNat 10 (Int.le_of_not_le down), div_inv_eq_mul, Nat.cast_ofNat]
    exact inside

/-- A double is read back from its shortest decimal. -/
theorem ofDecimal_shortest (negative : Bool) (tie : TieRule) (normal : Normal m e)
    (positive : 0 < m) :
    ofDecimal negative (shortest tie m e).digits (shortest tie m e).exponent =
      .finite negative m e :=
  ofDecimal_of_readsAs negative normal positive (readsAs_shortest positive normal.small)

end OfDecimal

end Binary64

end HarnessSynthesis
