import Mathlib.Algebra.Order.Field.Rat
import Mathlib.Algebra.Order.Ring.Cast
import Mathlib.Order.Compare
import Mathlib.Order.WithBot
import Mathlib.Tactic.NormNum
import Mathlib.Tactic.Positivity
import RecordStore.Number.Double

/-!
# The line of numbers

Integers and doubles as rational numbers, between the two infinities and with what is not a number
below them all. Doubles are read by the rule of the interchange format, with powers of two on either
side of the point (`Double.place`), and not by counts of the smallest one; that magnitudes compare
as their places on the line (`Magnitude.compares_place`) ties the counts to it.
-/

namespace RecordStore

/-- The rational numbers between two infinities, with one more element below them, for what is not
a number. -/
abbrev NumberLine : Type := WithBot (WithBot (WithTop ℚ))

namespace NumberLine

/-- The place of what is not a number, before all others. -/
def notANumber : NumberLine := ⊥

/-- The place before all numbers. -/
def negativeInfinity : NumberLine := ((⊥ : WithBot (WithTop ℚ)) : NumberLine)

/-- The place of a number. -/
def ofRat (x : ℚ) : NumberLine := (((x : WithTop ℚ) : WithBot (WithTop ℚ)) : NumberLine)

/-- The place behind all numbers. -/
def positiveInfinity : NumberLine := (((⊤ : WithTop ℚ) : WithBot (WithTop ℚ)) : NumberLine)

/-- The line has the rational numbers in their order. -/
theorem ofRat_lt_ofRat {x y : ℚ} : ofRat x < ofRat y ↔ x < y := by
  rw [ofRat, ofRat, WithBot.coe_lt_coe, WithBot.coe_lt_coe, WithTop.coe_lt_coe]

theorem ofRat_inj {x y : ℚ} : ofRat x = ofRat y ↔ x = y := by
  rw [ofRat, ofRat, WithBot.coe_inj, WithBot.coe_inj, WithTop.coe_inj]

/-- What is not a number comes first. -/
theorem notANumber_lt_negativeInfinity : notANumber < negativeInfinity := WithBot.bot_lt_coe _

theorem negativeInfinity_lt_ofRat (x : ℚ) : negativeInfinity < ofRat x :=
  WithBot.coe_lt_coe.mpr (WithBot.bot_lt_coe _)

theorem ofRat_lt_positiveInfinity (x : ℚ) : ofRat x < positiveInfinity :=
  WithBot.coe_lt_coe.mpr (WithBot.coe_lt_coe.mpr (WithTop.coe_lt_top x))

end NumberLine

open NumberLine

namespace Double

/-- The size of a finite double. Fractions count in steps of `2 ^ -52`; an exponent field of zero
stands for the same power of two as one, without the leading one. -/
def size (exponent : Fin 2047) (fraction : Fin 4503599627370496) : ℚ :=
  if exponent.val = 0 then (fraction.val : ℚ) / 2 ^ 52 * 2 ^ (-1022 : ℤ)
  else (1 + (fraction.val : ℚ) / 2 ^ 52) * 2 ^ ((exponent.val : ℤ) - 1023)

/-- Where a double lies on the line of numbers. -/
def place : Double → NumberLine
  | .nan => notANumber
  | .infinite negative => if negative then negativeInfinity else positiveInfinity
  | .finite negative exponent fraction =>
    ofRat (if negative then -size exponent fraction else size exponent fraction)

/-- A power of two brought up by another one. -/
theorem two_zpow_mul_two_pow {a : ℤ} {b c : ℕ} (h : a + b = c) : (2 : ℚ) ^ a * 2 ^ b = 2 ^ c := by
  rw [← zpow_natCast 2 b, ← zpow_add₀ two_ne_zero, h, zpow_natCast]

/-- The significand, scaled, counts the smallest positive doubles in a size. -/
theorem significand_mul_scale (exponent : Fin 2047) (fraction : Fin 4503599627370496) :
    (significand exponent fraction : ℚ) * 2 ^ scale exponent =
      size exponent fraction * 2 ^ 1074 := by
  have hsteps : (fraction.val : ℚ) / 2 ^ 52 * 2 ^ 52 = fraction.val :=
    div_mul_cancel₀ _ (by positivity)
  by_cases hzero : exponent.val = 0
  · have hpower : (2 : ℚ) ^ (-1022 : ℤ) * 2 ^ 1074 = 2 ^ 52 := two_zpow_mul_two_pow (by decide)
    rw [significand, if_pos hzero, scale, hzero, size, if_pos hzero, mul_assoc, hpower, hsteps,
      Nat.zero_sub, pow_zero, mul_one]
  · have hpower : (2 : ℚ) ^ ((exponent.val : ℤ) - 1023) * 2 ^ 1074 =
        2 ^ (52 + (exponent.val - 1)) := two_zpow_mul_two_pow (by omega)
    have hcount : (fractionCount : ℚ) = 2 ^ 52 := by norm_num [fractionCount]
    rw [significand, if_neg hzero, scale, size, if_neg hzero, mul_assoc, hpower, pow_add,
      ← mul_assoc, add_mul, one_mul, hsteps, Nat.cast_add, hcount]

end Double

namespace Magnitude

/-- Where a magnitude lies on the line of numbers. -/
def place : Magnitude → NumberLine
  | .unordered => notANumber
  | .below => negativeInfinity
  | .units count => ofRat (count / 2 ^ 1074)
  | .above => positiveInfinity

/-- A whole number lies on the line as itself. -/
theorem place_ofInt (n : ℤ) : (ofInt n).place = ofRat n := by
  have hunits : (Double.unitsPerOne : ℚ) = 2 ^ 1074 := by
    unfold Double.unitsPerOne
    -- The exponent is kept out of sight, as the power has more than three hundred digits.
    generalize 1074 = k
    exact Nat.cast_pow 2 k
  rw [ofInt, place, Int.cast_mul, Int.cast_natCast, hunits, mul_div_cancel_right₀ _ (by positivity)]

/-- A double lies on the line where the rule of the interchange format puts it. -/
theorem place_ofDouble (x : Double) : (ofDouble x).place = x.place := by
  cases x with
  | nan => rfl
  | infinite negative => cases negative <;> rfl
  | finite negative exponent fraction =>
    -- The count of smallest doubles is a whole number; the size is that count in steps of them.
    have hunits : (Double.significand exponent fraction : ℚ) *
        (Nat.pow 2 (Double.scale exponent) : ℕ) = Double.size exponent fraction * 2 ^ 1074 := by
      rw [← Double.significand_mul_scale]
      exact congrArg _ (Nat.cast_pow 2 _)
    have hpositive : (2 : ℚ) ^ 1074 ≠ 0 := by positivity
    rw [ofDouble, place, Double.place, ofRat_inj, div_eq_iff hpositive]
    cases negative with
    | true => simp only [if_true, Int.cast_neg, Int.cast_mul, Int.cast_natCast, hunits, neg_mul]
    | false =>
      simp only [Bool.false_eq_true, if_false, Int.cast_mul, Int.cast_natCast, hunits]

/-- Magnitudes compare as their places on the line. -/
theorem compares_place (m n : Magnitude) : (m.compare n).Compares m.place n.place := by
  have hunits (a : ℤ) : negativeInfinity < (units a).place := negativeInfinity_lt_ofRat _
  have habove (a : ℤ) : (units a).place < positiveInfinity := ofRat_lt_positiveInfinity _
  have hinfinities : negativeInfinity < positiveInfinity := (hunits 0).trans (habove 0)
  cases m with
  | units a =>
    cases n with
    | units b =>
      -- Two numbers of units are compared in the rational numbers.
      have hscale : (0 : ℚ) < 2 ^ 1074 := by positivity
      change (Ord.compare a b).Compares (ofRat (a / 2 ^ 1074)) (ofRat (b / 2 ^ 1074))
      obtain hlt | rfl | hgt := Int.lt_trichotomy a b
      · rw [Int.compare_eq_lt.mpr hlt]
        exact ofRat_lt_ofRat.mpr (div_lt_div_of_pos_right (Int.cast_lt.mpr hlt) hscale)
      · rw [Int.compare_eq_eq.mpr rfl]
        exact rfl
      · rw [Int.compare_eq_gt.mpr hgt]
        exact ofRat_lt_ofRat.mpr (div_lt_div_of_pos_right (Int.cast_lt.mpr hgt) hscale)
    | unordered => exact notANumber_lt_negativeInfinity.trans (hunits a)
    | below => exact hunits a
    | above => exact habove a
  | unordered =>
    cases n with
    | units b => exact notANumber_lt_negativeInfinity.trans (hunits b)
    | unordered => exact rfl
    | below => exact notANumber_lt_negativeInfinity
    | above => exact notANumber_lt_negativeInfinity.trans hinfinities
  | below =>
    cases n with
    | units b => exact hunits b
    | unordered => exact notANumber_lt_negativeInfinity
    | below => exact rfl
    | above => exact hinfinities
  | above =>
    cases n with
    | units b => exact habove b
    | unordered => exact notANumber_lt_negativeInfinity.trans hinfinities
    | below => exact hinfinities
    | above => exact rfl

end Magnitude

end RecordStore
