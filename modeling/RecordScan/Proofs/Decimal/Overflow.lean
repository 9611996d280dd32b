import Mathlib.Algebra.Order.Field.Power
import Mathlib.Algebra.Order.Ring.Rat
import Mathlib.Tactic.Linarith
import Mathlib.Tactic.NormNum
import Mathlib.Tactic.Positivity
import Mathlib.Tactic.Ring
import RecordScan.Decimal.Binary64

/-!
Contract: which decimals are read as infinite.

Owns: the least magnitude that is rounded past the largest number (`Binary64.ceiling`), and
that a decimal is read as infinite exactly if it is as large (`Binary64.ofDecimal_cases`).

The exponent of a fraction is chosen so that the significand fills its binary digits. So a
fraction is past the largest number if its exponent is, or if its exponent is the greatest
and rounding carries, and the latter begins half a unit below the next power of two. The
bound on the order of magnitude that is looked at first only saves work.
-/

namespace RecordScan.Binary64

/-- Halfway between the largest number and the power of two behind it. A tie is rounded to that
power, whose significand is even. -/
def ceiling : Nat :=
  (Nat.pow 2 (precision + 1) - 1) * Nat.pow 2 (greatestExponent - 1).toNat

theorem cast_ceiling : (ceiling : ℚ) = (2 ^ 54 - 1) * 2 ^ (greatestExponent - 1) := by
  have isExponent : ((greatestExponent - 1).toNat : Int) = greatestExponent - 1 := by decide
  rw [ceiling, Nat.cast_mul, Nat.pow_eq, Nat.pow_eq, Nat.cast_pow, ← zpow_natCast, isExponent]
  norm_num only [precision]

/-! ## Rounding -/

/-- A fraction below an even number is rounded up to it from half a unit before it. -/
theorem roundQuotient_eq_iff {numerator denominator bound : Nat} (even : bound % 2 = 0)
    (below : numerator < bound * denominator) :
    roundQuotient numerator denominator = bound ↔
      (2 * bound - 1) * denominator ≤ 2 * numerator := by
  have positive : 0 < denominator := Nat.pos_of_lt_mul_left below
  have remains : numerator % denominator < denominator := Nat.mod_lt numerator positive
  have isBelow : numerator / denominator < bound := (Nat.div_lt_iff_lt_mul positive).mpr below
  have divided : 2 * numerator =
      2 * (numerator / denominator) * denominator + 2 * (numerator % denominator) := by
    rw [mul_assoc, ← mul_add, Nat.div_add_mod']
  unfold roundQuotient
  extract_lets quotient twice
  by_cases isLast : quotient + 1 = bound
  · -- The quotient is odd, so that a tie is rounded up as well.
    have isFactor : (2 * bound - 1) * denominator = 2 * quotient * denominator + denominator := by
      rw [← isLast, ← Nat.succ_mul]
      rfl
    rw [divided, isFactor, Nat.add_le_add_iff_left]
    split_ifs <;> omega
  · have isFactor : 2 * (quotient + 1) * denominator ≤ (2 * bound - 1) * denominator :=
      Nat.mul_le_mul_right denominator (by omega)
    have notReached : 2 * numerator < 2 * (quotient + 1) * denominator := by
      rw [divided, mul_add 2 quotient, add_mul]
      exact Nat.add_lt_add_left (Nat.mul_lt_mul_of_pos_left remains two_pos) _
    constructor
    · intro isRounded
      split_ifs at isRounded <;> omega
    · intro isReached
      omega

section Fractions

variable {numerator denominator : Nat} {exponent : Int}

theorem pow_toNat_neg_mul {base : ℚ} (notZero : base ≠ 0) (exponent : Int) :
    base ^ (-exponent).toNat * base ^ exponent = base ^ exponent.toNat := by
  rw [← zpow_natCast, ← zpow_natCast, ← zpow_add₀ notZero]
  congr 1
  omega

/-- Comparing a scaled fraction is comparing the fraction with a scaled bound. -/
theorem mul_scale_le_iff (bound factor : Nat) :
    bound * (scale numerator denominator exponent).2 ≤
        factor * (scale numerator denominator exponent).1 ↔
      (bound : ℚ) * (2 ^ exponent * denominator) ≤ factor * numerator := by
  have positive : (0 : ℚ) < 2 ^ (-exponent).toNat := by positivity
  have isBound : (bound : ℚ) * (denominator * 2 ^ exponent.toNat) =
      bound * (2 ^ exponent * denominator) * 2 ^ (-exponent).toNat := by
    rw [← pow_toNat_neg_mul two_ne_zero]
    ring
  have isFactor : (factor : ℚ) * (numerator * 2 ^ (-exponent).toNat) =
      factor * numerator * 2 ^ (-exponent).toNat := by
    ring
  rw [← Nat.cast_le (α := ℚ), scale]
  push_cast [Nat.pow_eq]
  rw [isBound, isFactor]
  exact mul_le_mul_iff_of_pos_right positive

theorem scale_lt_iff (bound : Nat) :
    (scale numerator denominator exponent).1 < bound * (scale numerator denominator exponent).2 ↔
      (numerator : ℚ) < bound * (2 ^ exponent * denominator) := by
  rw [← Nat.not_le, ← Nat.one_mul (scale numerator denominator exponent).1, mul_scale_le_iff,
    not_le, Nat.cast_one, one_mul]

/-- Of powers of two the exponents are added. -/
theorem two_pow_mul (count : Nat) (first second : Int) :
    (2 : ℚ) ^ count * (2 ^ first * 2 ^ second) = 2 ^ (count + first + second) := by
  rw [← zpow_natCast, ← zpow_add₀ two_ne_zero, ← zpow_add₀ two_ne_zero, add_assoc]

/-- Logarithms tell the exponent of a fraction, with one binary digit to spare. -/
theorem guess_bounds (notZero : numerator ≠ 0) (positive : 0 < denominator)
    (isGuess : exponent = (numerator.log2 : Int) - denominator.log2 - precision) :
    2 ^ 52 * (2 ^ exponent * (denominator : ℚ)) ≤ numerator ∧
      (numerator : ℚ) < 2 ^ 54 * (2 ^ exponent * denominator) := by
  have isLeast : (2 : ℚ) ^ (numerator.log2 : Int) ≤ numerator := by
    exact_mod_cast Nat.log2_self_le notZero
  have isBelow : (numerator : ℚ) < 2 ^ (numerator.log2 + 1 : Int) := by
    exact_mod_cast Nat.lt_log2_self
  have denominatorLeast : (2 : ℚ) ^ (denominator.log2 : Int) ≤ denominator := by
    exact_mod_cast Nat.log2_self_le positive.ne'
  have denominatorBelow : (denominator : ℚ) ≤ 2 ^ (denominator.log2 + 1 : Int) := by
    exact_mod_cast Nat.lt_log2_self.le
  simp only [precision] at isGuess
  constructor
  · calc 2 ^ 52 * (2 ^ exponent * (denominator : ℚ))
        ≤ 2 ^ 52 * (2 ^ exponent * 2 ^ (denominator.log2 + 1 : Int)) := by gcongr
      _ = 2 ^ (numerator.log2 : Int) := by
        rw [two_pow_mul]
        congr 1
        omega
      _ ≤ numerator := isLeast
  · calc (numerator : ℚ)
        < 2 ^ (numerator.log2 + 1 : Int) := isBelow
      _ = 2 ^ 54 * (2 ^ exponent * 2 ^ (denominator.log2 : Int)) := by
        rw [two_pow_mul]
        congr 1
        omega
      _ ≤ 2 ^ 54 * (2 ^ exponent * denominator) := by gcongr

/-- The significand of a fraction, before it is rounded, has as many binary digits as there is
room for; only at the least exponent it may have fewer. -/
theorem exponentOf_bounds (notZero : numerator ≠ 0) (positive : 0 < denominator) :
    (leastExponent < exponentOf numerator denominator →
      2 ^ 52 * (2 ^ exponentOf numerator denominator * (denominator : ℚ)) ≤ numerator) ∧
    (numerator : ℚ) < 2 ^ 53 * (2 ^ exponentOf numerator denominator * denominator) := by
  unfold exponentOf
  extract_lets guess scaled exact
  obtain ⟨least, below⟩ := guess_bounds notZero positive rfl
  have bounds : 2 ^ 52 * (2 ^ exact * (denominator : ℚ)) ≤ numerator ∧
      (numerator : ℚ) < 2 ^ 53 * (2 ^ exact * denominator) := by
    have isScaled : scaled.1 / scaled.2 < Nat.pow 2 precision ↔
        (numerator : ℚ) < 2 ^ 53 * (2 ^ guess * denominator) := by
      have isPositive : 0 < scaled.2 := Nat.mul_pos positive (Nat.pow_pos two_pos)
      rw [Nat.div_lt_iff_lt_mul isPositive, scale_lt_iff]
      push_cast [Nat.pow_eq, precision]
      rfl
    have isNext : (2 : ℚ) ^ (guess + 1) = 2 * 2 ^ guess := by
      rw [zpow_add_one₀ two_ne_zero, mul_comm]
    by_cases fits : scaled.1 / scaled.2 < Nat.pow 2 precision
    · rw [show exact = guess from if_pos fits]
      exact ⟨least, isScaled.mp fits⟩
    · rw [show exact = guess + 1 from if_neg fits, isNext]
      rw [isScaled] at fits
      constructor
      · linarith
      · linarith
  constructor
  · intro isAbove
    rw [max_eq_left (by omega)]
    exact bounds.1
  · calc (numerator : ℚ)
        < 2 ^ 53 * (2 ^ exact * denominator) := bounds.2
      _ ≤ 2 ^ 53 * (2 ^ max exact leastExponent * denominator) := by
        gcongr
        · norm_num
        · exact le_max_left exact leastExponent

/-- Rounding carries from half a unit below the next power of two on. -/
theorem carries_iff
    (fits : (numerator : ℚ) < 2 ^ 53 * (2 ^ exponent * denominator)) :
    roundQuotient (scale numerator denominator exponent).1
        (scale numerator denominator exponent).2 = Nat.pow 2 precision ↔
      (2 ^ 54 - 1) * (2 ^ exponent * (denominator : ℚ)) ≤ 2 * numerator := by
  have below : (scale numerator denominator exponent).1 <
      Nat.pow 2 precision * (scale numerator denominator exponent).2 := by
    rw [scale_lt_iff]
    push_cast [Nat.pow_eq, precision]
    exact fits
  rw [roundQuotient_eq_iff (by decide) below, mul_scale_le_iff]
  norm_num [precision]

/-- The exponent is past the greatest one, after a carry if there is one, exactly from the ceiling
on. -/
theorem greatestExponent_lt_iff {carried : Prop} [Decidable carried] (positive : 0 < denominator)
    (least : leastExponent < exponent → 2 ^ 52 * (2 ^ exponent * (denominator : ℚ)) ≤ numerator)
    (fits : (numerator : ℚ) < 2 ^ 53 * (2 ^ exponent * denominator))
    (carries : carried ↔ (2 ^ 54 - 1) * (2 ^ exponent * (denominator : ℚ)) ≤ 2 * numerator) :
    (greatestExponent < if carried then exponent + 1 else exponent) ↔
      (ceiling : ℚ) * denominator ≤ numerator := by
  have pow_le {first second : Int} (ordered : first ≤ second) :
      2 ^ first * (denominator : ℚ) ≤ 2 ^ second * denominator :=
    mul_le_mul_of_nonneg_right (zpow_le_zpow_right₀ one_le_two ordered) (Nat.cast_nonneg _)
  have isTwice : (2 : ℚ) ^ greatestExponent = 2 * 2 ^ (greatestExponent - 1) := by
    rw [← zpow_one_add₀ two_ne_zero, add_sub_cancel]
  have isPositive : (0 : ℚ) < 2 ^ (greatestExponent - 1) * denominator := by positivity
  rw [cast_ceiling]
  rcases lt_trichotomy exponent greatestExponent with less | rfl | greater
  · -- A carry leads to the greatest exponent at most.
    have notPast : ¬ greatestExponent < if carried then exponent + 1 else exponent := by
      split_ifs <;> omega
    have small := pow_le (Int.le_sub_one_of_lt less)
    generalize (2 : ℚ) ^ (greatestExponent - 1) = power at *
    refine iff_of_false notPast (not_le.mpr ?_)
    linarith
  · have isPast : (greatestExponent < if carried then greatestExponent + 1 else greatestExponent) ↔
        carried := by
      split_ifs with isCarried <;> simp [isCarried]
    rw [isPast, carries, isTwice]
    generalize (2 : ℚ) ^ (greatestExponent - 1) = power
    constructor <;> intro <;> linarith
  · have isPast : greatestExponent < if carried then exponent + 1 else exponent := by
      split_ifs <;> omega
    have isLarge := least (lt_trans (by decide) greater)
    have large := pow_le (Int.add_one_le_of_lt greater)
    rw [zpow_add_one₀ two_ne_zero, isTwice] at large
    generalize (2 : ℚ) ^ (greatestExponent - 1) = power at *
    refine iff_of_true isPast ?_
    linarith

/-- A fraction is read as infinite from the ceiling on, and as finite below it. -/
theorem ofRatio_cases (negative : Bool) (positive : 0 < denominator) :
    ((ceiling : ℚ) * denominator ≤ numerator ∧
      ofRatio negative numerator denominator = .infinite negative) ∨
    ((numerator : ℚ) < ceiling * denominator ∧ ∃ significand exponent,
      ofRatio negative numerator denominator = .finite negative significand exponent) := by
  unfold ofRatio
  split_ifs with isZero
  · right
    refine ⟨?_, _, _, rfl⟩
    rw [isZero, cast_ceiling]
    positivity
  · obtain ⟨least, fits⟩ := exponentOf_bounds isZero positive
    have isPast := greatestExponent_lt_iff positive least fits (carries_iff fits)
    extract_lets exponent scaled rounded carried significand final
    by_cases past : greatestExponent < final
    · exact .inl ⟨isPast.mp past, if_pos past⟩
    · exact .inr ⟨not_le.mp (mt isPast.mpr past), significand, final, if_neg past⟩

end Fractions

/-! ## Decimals -/

theorem decimal_lt (digits : Nat) (exponent : Int) :
    digits * (10 : ℚ) ^ exponent < 10 ^ (digitCount digits + exponent) := by
  have isBelow : digits < 10 ^ digitCount digits :=
    (Nat.length_toDigits_le_iff (by decide) Nat.length_toDigits_pos).mp (Nat.le_refl _)
  rw [zpow_add₀ (by norm_num), zpow_natCast]
  apply mul_lt_mul_of_pos_right _ (by positivity)
  exact_mod_cast isBelow

theorem le_decimal {digits : Nat} (notZero : digits ≠ 0) (exponent : Int) :
    (10 : ℚ) ^ (digitCount digits + exponent - 1) ≤ digits * 10 ^ exponent := by
  have positive : 0 < digitCount digits := Nat.length_toDigits_pos
  have isLeast : 10 ^ (digitCount digits - 1) ≤ digits := by
    by_cases isOne : digitCount digits = 1
    · rw [isOne]
      exact Nat.pos_of_ne_zero notZero
    · have isShorter := @Nat.length_toDigits_le_iff 10 digits (digitCount digits - 1)
        (by decide) (by omega)
      apply Nat.not_lt.mp
      rw [← isShorter]
      exact Nat.not_le.mpr (Nat.sub_one_lt positive.ne')
  rw [show digitCount digits + exponent - 1 = ((digitCount digits - 1 : Nat) : Int) + exponent by
    omega, zpow_add₀ (by norm_num), zpow_natCast]
  apply mul_le_mul_of_nonneg_right _ (by positivity)
  exact_mod_cast isLeast

theorem one_le_ceiling : (1 : ℚ) ≤ ceiling := by
  have positive : 1 ≤ ceiling := by decide +kernel
  exact_mod_cast positive

theorem ceiling_le : (ceiling : ℚ) ≤ 10 ^ magnitudeLimit := by
  have isLimit : magnitudeLimit = (magnitudeLimit.toNat : Int) := rfl
  have isBelow : ceiling ≤ Nat.pow 10 magnitudeLimit.toNat := by decide +kernel
  rw [isLimit, zpow_natCast]
  generalize magnitudeLimit.toNat = limit at isBelow
  exact_mod_cast isBelow

/-- **What is read as infinite.** A decimal is read as infinite from the ceiling on, and as finite
below it. -/
theorem ofDecimal_cases (negative : Bool) (digits : Nat) (exponent : Int) :
    ((ceiling : ℚ) ≤ digits * 10 ^ exponent ∧
      ofDecimal negative digits exponent = .infinite negative) ∨
    (digits * (10 : ℚ) ^ exponent < ceiling ∧ ∃ significand power,
      ofDecimal negative digits exponent = .finite negative significand power) := by
  have pow_le {first second : Int} (ordered : first ≤ second) : (10 : ℚ) ^ first ≤ 10 ^ second :=
    zpow_le_zpow_right₀ (by norm_num) ordered
  unfold ofDecimal
  extract_lets magnitude
  split_ifs with isSmall isLarge
  · right
    refine ⟨?_, _, _, rfl⟩
    simp only [Bool.or_eq_true, decide_eq_true_eq] at isSmall
    rcases isSmall with isZero | isSmall
    · rw [isZero, Nat.cast_zero, zero_mul]
      exact lt_of_lt_of_le one_pos one_le_ceiling
    · calc digits * (10 : ℚ) ^ exponent
          < 10 ^ magnitude := decimal_lt digits exponent
        _ ≤ 10 ^ (0 : Int) := pow_le (le_trans isSmall.le (by decide))
        _ = 1 := zpow_zero 10
        _ ≤ ceiling := one_le_ceiling
  · left
    refine ⟨?_, rfl⟩
    simp only [Bool.or_eq_true, decide_eq_true_eq, not_or] at isSmall
    calc (ceiling : ℚ)
        ≤ 10 ^ magnitudeLimit := ceiling_le
      _ ≤ 10 ^ (magnitude - 1) := pow_le (Int.le_sub_one_of_lt isLarge)
      _ ≤ digits * 10 ^ exponent := le_decimal isSmall.1 exponent
  · have isPositive : 0 < Nat.pow 10 (-exponent).toNat := Nat.pow_pos (by decide)
    have isRatio : (ceiling : ℚ) * (Nat.pow 10 (-exponent).toNat : Nat) ≤
        (digits * Nat.pow 10 exponent.toNat : Nat) ↔ (ceiling : ℚ) ≤ digits * 10 ^ exponent := by
      rw [Nat.pow_eq, Nat.pow_eq]
      push_cast
      rw [← pow_toNat_neg_mul (by norm_num) exponent, mul_comm (10 ^ (-exponent).toNat : ℚ),
        ← mul_assoc]
      exact mul_le_mul_iff_of_pos_right (by positivity)
    have cases := @ofRatio_cases (digits * Nat.pow 10 exponent.toNat) _ negative isPositive
    rw [← not_le, isRatio, not_le] at cases
    exact cases

end RecordScan.Binary64
