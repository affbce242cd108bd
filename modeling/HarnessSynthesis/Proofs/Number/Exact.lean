/-
# Integers that are doubles

The mantissa of a double has 53 binary digits, so rounding leaves every integer of no more digits
alone. Counted in units of the smallest double such an integer is itself many times over, and
different ones stay different. Taken back from the double it is the same integer; what is above all
signed words comes back as the greatest of them.
-/

import HarnessSynthesis.Number.Binary64

namespace HarnessSynthesis.Binary64

theorem roundQuotient_one (n : Nat) : roundQuotient n 1 = n := by
  simp only [roundQuotient, Nat.div_one, Nat.mod_one, Nat.mul_zero, Nat.lt_one_iff, if_true]

theorem floorLog2_one {n : Nat} (positive : 0 < n) : floorLog2 n 1 = n.log2 := by
  have below : 1 * Nat.pow 2 n.log2 ≤ n := by
    rw [Nat.one_mul]
    exact Nat.log2_self_le (Nat.ne_of_gt positive)
  have one : Nat.log2 1 = 0 := by decide
  simp only [floorLog2, one, Int.ofNat_zero, Int.sub_zero, Int.toNat_natCast, Int.natCast_nonneg,
    if_true, below]

/-- An integer of at most 53 binary digits is the double of a mantissa that fills all 53. -/
theorem ofQuotient_one (negative : Bool) {n : Nat} (positive : 0 < n) (small : n < Nat.pow 2 53) :
    ofQuotient negative n 1 =
      .finite negative (n * Nat.pow 2 (52 - n.log2)) (-(52 - n.log2 : Nat)) := by
  have digits : n.log2 ≤ 52 := Nat.le_of_lt_succ ((Nat.log2_lt (Nat.ne_of_gt positive)).2 small)
  have exponent : max (floorLog2 n 1 - 52) minExponent = -(52 - n.log2 : Nat) := by
    rw [floorLog2_one positive, minExponent]
    omega
  have mantissa : (if 0 ≤ (-(52 - n.log2 : Nat) : Int) then
      roundQuotient n (1 * Nat.pow 2 (-(52 - n.log2 : Nat) : Int).toNat)
      else roundQuotient (n * Nat.pow 2 (- -(52 - n.log2 : Nat) : Int).toNat) 1) =
        n * Nat.pow 2 (52 - n.log2) := by
    split
    · have none : 52 - n.log2 = 0 := by omega
      rw [none, Int.natCast_zero, Int.neg_zero, Int.toNat_zero]
      exact (roundQuotient_one n).trans (Nat.mul_one n).symm
    · rw [roundQuotient_one, Int.neg_neg, Int.toNat_natCast]
  have full : n * Nat.pow 2 (52 - n.log2) < Nat.pow 2 53 := by
    have scaled : n * Nat.pow 2 (52 - n.log2) < Nat.pow 2 (n.log2 + 1) * Nat.pow 2 (52 - n.log2) :=
      Nat.mul_lt_mul_of_pos_right Nat.lt_log2_self (Nat.two_pow_pos _)
    have exponents : 53 = n.log2 + 1 + (52 - n.log2) := by omega
    rw [exponents]
    exact Nat.lt_of_lt_of_eq scaled (Nat.pow_add 2 _ _).symm
  have finite : ¬ maxExponent < (-(52 - n.log2 : Nat) : Int) := by
    rw [maxExponent]
    omega
  simp only [ofQuotient, Nat.ne_of_gt positive, exponent, mantissa, Nat.ne_of_lt full, if_false,
    finite]

/-- A small integer is counted exactly. -/
theorem units_ofInt {i : Int} (small : i.natAbs < Nat.pow 2 53) :
    (ofInt i).units = i * Nat.pow 2 minExponent.natAbs := by
  by_cases zero : i.natAbs = 0
  · rw [ofInt, zero, ofQuotient, if_pos rfl, Int.natAbs_eq_zero.1 zero, Int.zero_mul, Binary64.zero,
      units, Int.natCast_zero, Int.zero_mul, Int.neg_zero, ite_self]
  · have positive : 0 < i.natAbs := Nat.pos_of_ne_zero zero
    have digits : i.natAbs.log2 ≤ 52 := Nat.le_of_lt_succ ((Nat.log2_lt zero).2 small)
    have exponent : ((-(52 - i.natAbs.log2 : Nat) : Int) - minExponent).toNat =
        1022 + i.natAbs.log2 := by
      rw [minExponent]
      omega
    have exponents : minExponent.natAbs = 52 - i.natAbs.log2 + (1022 + i.natAbs.log2) := by
      rw [minExponent]
      omega
    have size : ((i.natAbs * Nat.pow 2 (52 - i.natAbs.log2) : Nat) : Int) *
        Nat.pow 2 (1022 + i.natAbs.log2) = i.natAbs * Nat.pow 2 minExponent.natAbs := by
      rw [← Int.natCast_mul, Nat.mul_assoc, exponents, ← Int.natCast_mul]
      exact congrArg (fun n : Nat => ((i.natAbs * n : Nat) : Int)) (Nat.pow_add 2 _ _).symm
    rw [ofInt, ofQuotient_one _ positive small, units, exponent, size]
    split
    · rename_i negative
      rw [decide_eq_true_eq] at negative
      rw [← Int.neg_mul]
      congr 1
      omega
    · rename_i other
      rw [decide_eq_true_eq] at other
      congr 1
      omega

/-- Small integers are told apart as doubles. -/
theorem eq_of_compare_ofInt {i j : Int} (hi : i.natAbs < Nat.pow 2 53)
    (hj : j.natAbs < Nat.pow 2 53) (tied : (ofInt i).compare (ofInt j) = .eq) : i = j := by
  rw [compare, Int.compare_eq_eq, units_ofInt hi, units_ofInt hj] at tied
  generalize minExponent.natAbs = n at tied
  exact Int.eq_of_mul_eq_mul_right (Int.natCast_ne_zero.2 (Nat.ne_of_gt (Nat.two_pow_pos n))) tied

/-! ## Back from doubles -/

/-- Of a small integer nothing is lost when it becomes a double. -/
theorem truncate_ofInt {i : Int} (small : i.natAbs < Nat.pow 2 53) :
    (ofInt i).isWhole = true ∧ (ofInt i).truncate = i := by
  by_cases zero : i.natAbs = 0
  · have whole : (0 : Nat) % Nat.pow 2 (-minExponent).toNat = 0 := Nat.zero_mod _
    have down : ¬ (0 : Int) ≤ minExponent := by decide
    rw [ofInt, zero, ofQuotient, if_pos rfl, Int.natAbs_eq_zero.1 zero, Binary64.zero]
    refine ⟨?_, ?_⟩
    · rw [isWhole, whole, decide_eq_true rfl, Bool.or_true]
    · simp only [truncate, magnitude, down, if_false, Nat.zero_div, Int.natCast_zero, Int.neg_zero,
        ite_self]
  · have positive : 0 < i.natAbs := Nat.pos_of_ne_zero zero
    have exponent : (- -(52 - i.natAbs.log2 : Nat) : Int).toNat = 52 - i.natAbs.log2 := by omega
    have scale : 0 < Nat.pow 2 (52 - i.natAbs.log2) := Nat.two_pow_pos _
    have size : (magnitude (i.natAbs * Nat.pow 2 (52 - i.natAbs.log2))
        (-(52 - i.natAbs.log2 : Nat))).1 / (magnitude (i.natAbs * Nat.pow 2 (52 - i.natAbs.log2))
        (-(52 - i.natAbs.log2 : Nat))).2 = i.natAbs := by
      rw [magnitude]
      split
      · rename_i whole
        have none : 52 - i.natAbs.log2 = 0 := by omega
        rw [none]
        exact (Nat.div_one _).trans ((Nat.mul_one _).trans (Nat.mul_one _))
      · rw [exponent]
        exact Nat.mul_div_cancel _ scale
    rw [ofInt, ofQuotient_one _ positive small]
    refine ⟨?_, ?_⟩
    · rw [isWhole, exponent, Nat.mul_mod_left, decide_eq_true rfl, Bool.or_true]
    · simp only [truncate, size]
      split
      · rename_i negative
        rw [decide_eq_true_eq] at negative
        omega
      · rename_i other
        rw [decide_eq_true_eq] at other
        omega

/-! ## Words of doubles -/

theorem toInt64_bounds (b : Binary64) :
    Word.leastSigned 64 ≤ b.toInt64 ∧ b.toInt64 ≤ Word.greatestSigned 64 := by
  have ends : Word.leastSigned 64 ≤ Word.greatestSigned 64 := by decide
  cases b with
  | finite negative m e =>
    rw [toInt64]
    exact ⟨Int.le_max_left _ _, Int.max_le.2 ⟨ends, Int.min_le_left _ _⟩⟩
  | infinite negative => cases negative <;> decide
  | notANumber => decide

/-- What is a word without its fraction becomes that word. -/
theorem toInt64_eq_truncate {b : Binary64} (least : Word.leastSigned 64 ≤ b.truncate)
    (greatest : b.truncate ≤ Word.greatestSigned 64) (finite : b.isFinite = true) :
    b.toInt64 = b.truncate := by
  cases b with
  | finite negative m e =>
    rw [toInt64, Int.min_eq_right greatest, Int.max_eq_right least]
  | infinite negative | notANumber => cases finite

theorem div_le_roundQuotient (n d : Nat) : n / d ≤ roundQuotient n d := by
  simp only [roundQuotient]
  repeat' split
  all_goals omega

/-- Above the signed words rounding stays above them, so every such integer becomes the greatest
one. -/
theorem toInt64_ofInt_of_greatestSigned_lt {i : Int} (above : Word.greatestSigned 64 < i)
    (word : i ≤ Word.greatest 64) : (ofInt i).toInt64 = Word.greatestSigned 64 := by
  have top : Word.greatestSigned 64 = Nat.pow 2 63 - 1 := rfl
  have last : ((Word.greatest 64 : Nat) : Int) = Nat.pow 2 64 - 1 := rfl
  have low : Nat.pow 2 63 ≤ i.natAbs := by omega
  have high : i.natAbs < Nat.pow 2 64 := by omega
  have positive : 0 < i.natAbs := Nat.lt_of_lt_of_le (Nat.two_pow_pos 63) low
  have digits : i.natAbs.log2 = 63 :=
    (Nat.log2_eq_iff (Nat.ne_of_gt positive)).2 ⟨low, high⟩
  have sign : decide (i < 0) = false := decide_eq_false (by omega)
  have exponent : max (floorLog2 i.natAbs 1 - 52) minExponent = 11 := by
    rw [floorLog2_one positive, digits]
    decide
  have filled : Nat.pow 2 52 ≤ roundQuotient i.natAbs (1 * Nat.pow 2 (11 : Int).toNat) := by
    refine Nat.le_trans ?_ (div_le_roundQuotient _ _)
    exact (Nat.le_div_iff_mul_le (by decide)).2 low
  obtain ⟨m, e, rounded, mantissa, scale⟩ : ∃ (m e : Nat), ofInt i = .finite false m e ∧
      Nat.pow 2 52 ≤ m ∧ 11 ≤ e := by
    rw [ofInt, ofQuotient, if_neg (Nat.ne_of_gt positive), sign]
    simp only [exponent, Int.reduceLE, if_true]
    split
    · exact ⟨Nat.pow 2 52, 12, rfl, Nat.le_refl _, by decide⟩
    · exact ⟨_, 11, rfl, filled, by decide⟩
  have size : Nat.pow 2 63 ≤ m * Nat.pow 2 e :=
    calc Nat.pow 2 63 = Nat.pow 2 52 * Nat.pow 2 11 := Nat.pow_add 2 52 11
      _ ≤ m * Nat.pow 2 e := Nat.mul_le_mul mantissa (Nat.pow_le_pow_right Nat.two_pos scale)
  have whole : (0 : Int) ≤ (e : Int) := Int.natCast_nonneg e
  have beyond : Word.greatestSigned 64 ≤ truncate (.finite false m e) := by
    simp only [truncate, magnitude, whole, if_true, Int.toNat_natCast, Nat.div_one,
      Bool.false_eq_true, if_false]
    omega
  rw [rounded, toInt64, Int.min_eq_left beyond]
  rfl

end HarnessSynthesis.Binary64
