import Mathlib.Data.Nat.Cast.Field
import RecordStore.Proofs.Number.Rounding

/-!
# Shortest decimals read back

The decimal that is written for a finite double lies in the interval of the double
(`Double.rounds_shortest`), so that it is read as the double again
(`Double.ofDecimal_of_toRat_eq`).
-/

namespace RecordStore

namespace Decimal

/-- The number that a decimal is. -/
def toRat (d : Decimal) : ℚ := d.digits * 10 ^ d.exponent

variable {d : Decimal} {num den : Nat}

/-- A negative exponent divides. -/
theorem toRat_of_neg {digits n : Nat} : toRat ⟨digits, -n⟩ = digits / 10 ^ n := by
  rw [toRat, zpow_neg, zpow_natCast, ← div_eq_mul_inv]

/-- An exponent that is not negative multiplies. -/
theorem toRat_of_nonneg {digits n : Nat} : toRat ⟨digits, n⟩ = digits * 10 ^ n := by
  rw [toRat, zpow_natCast]

/-- The comparison from below compares the rational numbers. -/
theorem atLeast_iff (hden : 0 < den) : d.atLeast num den = true ↔ (num : ℚ) / den ≤ d.toRat := by
  have hpositive : (0 : ℚ) < den := Nat.cast_pos.mpr hden
  obtain ⟨digits, power⟩ := d
  rw [atLeast]
  obtain hnonnegative | hnegative := le_or_gt 0 power
  · obtain ⟨n, rfl⟩ := Int.eq_ofNat_of_zero_le hnonnegative
    rw [if_neg (not_lt.mpr hnonnegative), decide_eq_true_iff, toRat_of_nonneg,
      div_le_iff₀ hpositive, Int.toNat_natCast, ← Double.cast_ten_pow]
    exact_mod_cast Iff.rfl
  · obtain ⟨n, rfl⟩ := Int.exists_eq_neg_ofNat hnegative.le
    rw [if_pos hnegative, decide_eq_true_iff, toRat_of_neg, div_le_div_iff₀ hpositive (by positivity),
      Int.natAbs_neg, Int.natAbs_natCast, ← Double.cast_ten_pow]
    exact_mod_cast Iff.rfl

/-- The comparison from above compares the rational numbers. -/
theorem atMost_iff (hden : 0 < den) : d.atMost num den = true ↔ d.toRat ≤ (num : ℚ) / den := by
  have hpositive : (0 : ℚ) < den := Nat.cast_pos.mpr hden
  obtain ⟨digits, power⟩ := d
  rw [atMost]
  obtain hnonnegative | hnegative := le_or_gt 0 power
  · obtain ⟨n, rfl⟩ := Int.eq_ofNat_of_zero_le hnonnegative
    rw [if_neg (not_lt.mpr hnonnegative), decide_eq_true_iff, toRat_of_nonneg,
      le_div_iff₀ hpositive, Int.toNat_natCast, ← Double.cast_ten_pow]
    exact_mod_cast Iff.rfl
  · obtain ⟨n, rfl⟩ := Int.exists_eq_neg_ofNat hnegative.le
    rw [if_pos hnegative, decide_eq_true_iff, toRat_of_neg, div_le_div_iff₀ (by positivity) hpositive,
      Int.natAbs_neg, Int.natAbs_natCast, ← Double.cast_ten_pow]
    exact_mod_cast Iff.rfl

/-- A quotient by a divisor of a power of ten is a decimal. -/
theorem toRat_of_dvd {n : Nat} (hden : 0 < den) (h : den ∣ Nat.pow 10 n) :
    toRat ⟨num * Nat.pow 10 n / den, -n⟩ = num / den := by
  have hne : (den : ℚ) ≠ 0 := Nat.cast_ne_zero.mpr (Nat.ne_of_gt hden)
  have hpositive : (0 : ℚ) < 10 ^ n := by positivity
  rw [toRat_of_neg, Nat.cast_div (h.mul_left num) hne, Nat.cast_mul, Double.cast_ten_pow]
  field_simp

/-- Zeros at the end of the digits go into the power of ten. -/
theorem toRat_strip (fuel : Nat) (d : Decimal) : (d.strip fuel).toRat = d.toRat := by
  induction fuel generalizing d with
  | zero => rfl
  | succ fuel ih =>
    rw [strip]
    split
    · next hzero =>
      rw [ih]
      have hdigits : (d.digits : ℚ) = (d.digits / 10 : ℕ) * 10 := by
        exact_mod_cast (Nat.div_mul_cancel (Nat.dvd_of_mod_eq_zero hzero.2)).symm
      rw [toRat, toRat, hdigits, zpow_add_one₀ (by norm_num)]
      ring
    · rfl

end Decimal

namespace Double

variable {reads : Decimal → Bool} {num den : Nat} {d : Decimal}

/-- The neighbour that is chosen is accepted. -/
theorem reads_of_nearestNeighbour {place : Int} (h : nearestNeighbour reads num den place = some d) :
    reads d = true := by
  unfold nearestNeighbour at h
  extract_lets floor low high middle at h
  -- Which of the two neighbours is nearer does not matter here.
  clear_value floor low high middle
  have hchoice {p : Prop} [Decidable p] {e : Decimal} (hlow : reads low = true)
      (hhigh : reads high = true) (he : (if p then low else high) = e) : reads e = true := by
    subst he
    split
    · exact hlow
    · exact hhigh
  split at h
  · cases h
  · next hlow _ => exact Option.some.inj h ▸ hlow
  · next _ hhigh => exact Option.some.inj h ▸ hhigh
  · next hlow hhigh =>
    split at h
    · exact hchoice hlow hhigh (Option.some.inj h)
    · rw [← apply_ite some] at h
      exact hchoice hlow hhigh (Option.some.inj h)

/-- The decimal that is found is accepted. -/
theorem reads_of_searchDigits {point : Int} {fuel count : Nat}
    (h : searchDigits reads num den point fuel count = some d) : reads d = true := by
  induction fuel generalizing count with
  | zero => cases h
  | succ fuel ih =>
    rw [searchDigits] at h
    split at h
    · next hnear =>
      cases h
      exact reads_of_nearestNeighbour hnear
    · exact ih h

variable {exponent : Fin 2047} {fraction : Fin 4503599627370496}

theorem cast_unitsPerOne : (unitsPerOne : ℚ) = 2 ^ 1074 := by
  rw [unitsPerOne_eq]
  generalize 1074 = k
  rw [Nat.cast_pow, Nat.cast_ofNat]

theorem unitsPerOne_pos : 0 < unitsPerOne := by
  rw [unitsPerOne_eq]
  generalize 1074 = k
  exact Nat.two_pow_pos k

theorem four_mul_unitsPerOne_dvd {n : Nat} (h : 2 + 1074 ≤ n) : 4 * unitsPerOne ∣ Nat.pow 10 n := by
  rw [unitsPerOne_eq]
  generalize 1074 = k at *
  have hfour : 4 * 2 ^ k = 2 ^ (2 + k) := (Nat.pow_add 2 2 k).symm
  rw [hfour]
  exact (pow_dvd_pow 2 h).trans (pow_dvd_pow_of_dvd (by decide) n)

theorem cast_two_pow (n : ℕ) : ((Nat.pow 2 n : ℕ) : ℚ) = 2 ^ n :=
  (Nat.cast_pow 2 n).trans (by rw [Nat.cast_ofNat])

theorem div_units_eq (count s : Nat) :
    ((count * Nat.pow 2 s : ℕ) : ℚ) / (4 * unitsPerOne : ℕ) = count * 2 ^ s / (4 * 2 ^ 1074) := by
  rw [Nat.cast_mul, Nat.cast_mul, cast_two_pow, cast_unitsPerOne, Nat.cast_ofNat]

/-- A number of quarters of the last place of a double, as the number that it is. -/
theorem div_units_le_iff {count s : Nat} {q : ℚ} :
    ((count * Nat.pow 2 s : ℕ) : ℚ) / (4 * unitsPerOne : ℕ) ≤ q ↔
      (count : ℚ) * 2 ^ s ≤ 4 * (q * 2 ^ 1074) := by
  rw [div_units_eq, div_le_iff₀ (mul_pos four_pos (pow_pos two_pos 1074)), mul_left_comm]

/-- A bound in quarters of a unit bounds four times the number of units. -/
theorem le_div_units_iff {count s : Nat} {q : ℚ} :
    q ≤ ((count * Nat.pow 2 s : ℕ) : ℚ) / (4 * unitsPerOne : ℕ) ↔
      4 * (q * 2 ^ 1074) ≤ (count : ℚ) * 2 ^ s := by
  rw [div_units_eq, le_div_iff₀ (mul_pos four_pos (pow_pos two_pos 1074)), mul_left_comm]

theorem four_mul_div_units (count s : Nat) :
    4 * (((count * Nat.pow 2 s : ℕ) : ℚ) / (4 * unitsPerOne : ℕ) * 2 ^ 1074) = count * 2 ^ s :=
  le_antisymm (le_div_units_iff.mp le_rfl) (div_units_le_iff.mp le_rfl)

/-- In the middle of the interval lies the double. -/
theorem quarters_centre (exponent : Fin 2047) (fraction : Fin 4503599627370496) :
    (quarters exponent fraction).2.1 = 4 * significand exponent fraction := rfl

/-- The exact decimal of a double that is not zero lies in the interval of the double. -/
theorem rounds_exact (h : 0 < significand exponent fraction) {n : Nat} (hn : 2 + 1074 ≤ n) :
    Rounds exponent fraction (Decimal.toRat ⟨(quarters exponent fraction).2.1 *
      Nat.pow 2 (scale exponent) * Nat.pow 10 n / (4 * unitsPerOne), -n⟩) := by
  have hlow : (quarters exponent fraction).1 < (quarters exponent fraction).2.1 := by
    rw [quarters_low, quarters_centre]
    split <;> omega
  have hhigh : (quarters exponent fraction).2.1 < (quarters exponent fraction).2.2 := by
    rw [quarters_high, quarters_centre]
    omega
  have hden : 0 < 4 * unitsPerOne := Nat.mul_pos four_pos unitsPerOne_pos
  have hscale : (0 : ℚ) < 2 ^ scale exponent := pow_pos two_pos _
  have hlow' := mul_lt_mul_of_pos_right (Nat.cast_lt (α := ℚ).mpr hlow) hscale
  have hhigh' := mul_lt_mul_of_pos_right (Nat.cast_lt (α := ℚ).mpr hhigh) hscale
  rw [Decimal.toRat_of_dvd hden (four_mul_unitsPerOne_dvd hn)]
  rw [← four_mul_div_units (quarters exponent fraction).2.1] at hlow' hhigh'
  exact ⟨hlow'.le, hhigh'.le, .inr ⟨hlow', hhigh'⟩⟩

/-- Only zero has no significand. -/
theorem eq_zero_of_significand_eq_zero (h : significand exponent fraction = 0) :
    exponent = 0 ∧ fraction = 0 := by
  rw [significand, fractionCount] at h
  split at h
  · next hexponent => exact ⟨Fin.ext hexponent, Fin.ext h⟩
  · omega

/-- Zero is written as zero. -/
theorem shortest_of_significand_eq_zero (h : significand exponent fraction = 0) :
    shortest exponent fraction = ⟨0, 0⟩ := by
  have hcentre : (quarters exponent fraction).2.1 = 0 := by
    rw [quarters_centre, h]
  rw [shortest]
  exact if_pos hcentre

/-- The shortest decimal of a double that is not zero lies in the interval of the double. -/
theorem rounds_shortest (h : 0 < significand exponent fraction) :
    Rounds exponent fraction (shortest exponent fraction).toRat := by
  have hcentre : ¬(quarters exponent fraction).2.1 = 0 := by
    rw [quarters_centre]
    omega
  have hden : 0 < 4 * unitsPerOne := Nat.mul_pos four_pos unitsPerOne_pos
  rw [shortest]
  simp only [if_neg hcentre]
  split
  · next d hd =>
    have hreads := reads_of_searchDigits hd
    simp only [Bool.and_eq_true, Bool.or_eq_true, decide_eq_true_eq, Bool.not_eq_true',
      ← Bool.not_eq_true, Decimal.atLeast_iff hden, Decimal.atMost_iff hden, div_units_le_iff,
      le_div_units_iff, not_le] at hreads
    rw [Decimal.toRat_strip]
    exact ⟨hreads.1.1, hreads.1.2, hreads.2⟩
  -- No shorter text reads as the double, so the exact one is written.
  · have hpower : (-1100 : ℤ) = -(1100 : ℕ) := rfl
    have hplaces : 2 + 1074 ≤ 1100 := by decide
    rw [hpower]
    generalize 1100 = n at *
    exact rounds_exact h hplaces

/-- The decimal that is written for a double is read as it, also with zeros added behind its digits. -/
theorem ofDecimal_of_toRat_eq {digits : Nat} {power : ℤ}
    (h : (digits : ℚ) * 10 ^ power = (shortest exponent fraction).toRat) (negative : Bool) :
    ofDecimal negative digits power = .finite negative exponent fraction := by
  have hten : (10 : ℚ) ^ power ≠ 0 := zpow_ne_zero power (by norm_num)
  obtain hzero | hsize := Nat.eq_zero_or_pos (significand exponent fraction)
  · have hdigits : digits = 0 := by
      rw [shortest_of_significand_eq_zero hzero, Decimal.toRat, Nat.cast_zero, zero_mul,
        mul_eq_zero, or_iff_left hten, Nat.cast_eq_zero] at h
      exact h
    obtain ⟨rfl, rfl⟩ := eq_zero_of_significand_eq_zero hzero
    rw [ofDecimal, if_pos hdigits]
  · have hrounds := rounds_shortest hsize
    rw [← h] at hrounds
    -- Digits that are zero would not round to a double above zero.
    have hdigits : 0 < digits := by
      refine Nat.pos_of_ne_zero fun hzero => ?_
      have hone := hrounds.one_le hsize
      rw [hzero, Nat.cast_zero, zero_mul, zero_mul] at hone
      exact absurd hone (by norm_num)
    exact ofDecimal_of_rounds hdigits hsize hrounds negative

end Double

end RecordStore
