import Mathlib.Algebra.Order.Field.Rat
import Mathlib.Algebra.Order.Ring.Cast
import Mathlib.Tactic.FieldSimp
import Mathlib.Tactic.Linarith
import Mathlib.Tactic.NormNum
import Mathlib.Tactic.Positivity
import Mathlib.Tactic.Ring
import RecordStore.Number.Double
import RecordStore.Number.Shortest

/-!
# Rounding to doubles

The numbers that lie in the interval of a finite double (`Double.Rounds`) are rounded to it, whether
they are given as a quotient (`Double.ofRatio?_of_rounds`) or as a decimal
(`Double.ofDecimal_of_rounds`).
-/

namespace RecordStore.Double

/-! ## Quotients -/

/-- A quotient is rounded to a whole number that is no more than a half away, a half only to an even
one. -/
theorem roundQuotient_eq {num den m : Nat} (hden : 0 < den) (hlow : 2 * (m * den) ≤ 2 * num + den)
    (hhigh : 2 * num ≤ 2 * (m * den) + den)
    (hends : m % 2 = 0 ∨ 2 * (m * den) < 2 * num + den ∧ 2 * num < 2 * (m * den) + den) :
    roundQuotient num den = m := by
  have hnum : num / den * den + num % den = num := by
    rw [Nat.mul_comm]
    exact Nat.div_add_mod num den
  have hrest : num % den < den := Nat.mod_lt num hden
  rw [roundQuotient]
  generalize num / den = quotient at hnum
  generalize num % den = rest at hnum hrest
  -- The whole number is the quotient or the next one.
  have hnear : m = quotient ∨ m = quotient + 1 := by
    obtain hless | hsame | hmore := Nat.lt_trichotomy m quotient
    · have hstep : (m + 1) * den ≤ quotient * den := Nat.mul_le_mul_right den hless
      rw [Nat.succ_mul] at hstep
      omega
    · exact .inl hsame
    · refine .inr (Nat.le_antisymm ?_ hmore)
      by_contra hfar
      have hstep : (quotient + 2) * den ≤ m * den := Nat.mul_le_mul_right den (by omega)
      rw [Nat.add_mul] at hstep
      omega
  obtain rfl | rfl := hnear
  · split
    · rfl
    · split
      · omega
      · have heven : m % 2 = 0 := hends.elim id fun h => by omega
        omega
  · have hstep : (quotient + 1) * den = quotient * den + den := Nat.succ_mul quotient den
    rw [hstep] at hlow hhigh hends
    split
    · omega
    · split
      · rfl
      · have heven : (quotient + 1) % 2 = 0 := hends.elim id fun h => by omega
        omega

/-! ## The interval of a double -/

/-- The numbers that are rounded to a finite double: at most half a place away from it, or a quarter
below it where the places get narrower, and from an odd one less than that. -/
structure Rounds (exponent : Fin 2047) (fraction : Fin 4503599627370496) (q : ℚ) : Prop where
  low : ((quarters exponent fraction).1 : ℚ) * 2 ^ scale exponent ≤ 4 * (q * 2 ^ 1074)
  high : 4 * (q * 2 ^ 1074) ≤ (quarters exponent fraction).2.2 * 2 ^ scale exponent
  ends : significand exponent fraction % 2 = 0 ∨
    (quarters exponent fraction).1 * 2 ^ scale exponent < 4 * (q * 2 ^ 1074) ∧
      4 * (q * 2 ^ 1074) < (quarters exponent fraction).2.2 * 2 ^ scale exponent

variable {exponent : Fin 2047} {fraction : Fin 4503599627370496}

/-- A significand has at most 53 binary digits. -/
theorem significand_lt (exponent : Fin 2047) (fraction : Fin 4503599627370496) :
    significand exponent fraction < 2 * fractionCount := by
  have hfraction : fraction.val < fractionCount := fraction.isLt
  rw [significand]
  split <;> omega

theorem unitsPerOne_eq : unitsPerOne = 2 ^ 1074 := by
  unfold unitsPerOne
  -- The exponent is kept out of sight, as the power has more than three hundred digits.
  generalize 1074 = k
  rfl

/-- A quotient of whole numbers, of which the divisor is one place of a double, lies in the interval
of the double. -/
structure LiesIn (exponent : Fin 2047) (fraction : Fin 4503599627370496) (total place : Nat) : Prop where
  low : (quarters exponent fraction).1 * place ≤ 4 * total
  high : 4 * total ≤ (quarters exponent fraction).2.2 * place
  ends : significand exponent fraction % 2 = 0 ∨
    (quarters exponent fraction).1 * place < 4 * total ∧
      4 * total < (quarters exponent fraction).2.2 * place

/-- The interval of a double without fractions. -/
theorem Rounds.liesIn {num den : Nat} (hden : 0 < den) (h : Rounds exponent fraction (num / den)) :
    LiesIn exponent fraction (num * unitsPerOne) (den * 2 ^ scale exponent) := by
  have hpositive : (0 : ℚ) < den := Nat.cast_pos.mpr hden
  obtain ⟨hlow, hhigh, hends⟩ := h
  rw [unitsPerOne_eq]
  generalize 1074 = k at *
  generalize scale exponent = s at *
  -- All bounds are brought to the denominator, and then compared as whole numbers.
  have hmiddle : 4 * ((num : ℚ) / den * 2 ^ k) = (4 * (num * 2 ^ k) : ℕ) / den := by
    push_cast
    ring
  have hend (n : ℕ) : (n : ℚ) * 2 ^ s = (n * (den * 2 ^ s) : ℕ) / den := by
    push_cast
    field_simp
  have hle {a b : ℕ} : (a : ℚ) / den ≤ b / den ↔ a ≤ b := by
    rw [div_le_div_iff_of_pos_right hpositive, Nat.cast_le]
  have hlt {a b : ℕ} : (a : ℚ) / den < b / den ↔ a < b := by
    rw [div_lt_div_iff_of_pos_right hpositive, Nat.cast_lt]
  rw [hmiddle, hend, hle] at hlow hhigh
  rw [hmiddle, hend, hend, hlt, hlt] at hends
  exact ⟨hlow, hhigh, hends⟩

/-! ## Rounding -/

/-- A double is put together from its significand and its scale. -/
theorem assemble_eq (negative : Bool) (exponent : Fin 2047) (fraction : Fin 4503599627370496) :
    assemble negative (significand exponent fraction) (scale exponent) =
      some (.finite negative exponent fraction) := by
  obtain ⟨e, he⟩ := exponent
  obtain ⟨f, hf⟩ := fraction
  cases e with
  | zero =>
    have hsize : significand ⟨0, he⟩ ⟨f, hf⟩ = f := if_pos rfl
    have hsmall : f < fractionCount := hf
    rw [hsize, assemble, if_pos hsmall]
    simp [Fin.ofNat, Nat.mod_eq_of_lt hf]
  | succ e =>
    have hsize : significand ⟨e + 1, he⟩ ⟨f, hf⟩ = fractionCount + f := if_neg (Nat.succ_ne_zero e)
    have hscale : scale ⟨e + 1, he⟩ = e := rfl
    rw [hsize, hscale, assemble, if_neg (by omega), dif_pos he, Nat.add_sub_cancel_left]
    simp [Fin.ofNat, Nat.mod_eq_of_lt hf]

/-- The power of two that a quotient is scaled by, where it is between two powers. -/
theorem log2_div {total den k : Nat} (hden : 0 < den) (hlow : 2 ^ k * den ≤ total)
    (hhigh : total < 2 ^ (k + 1) * den) : Nat.log2 (total / den) = k := by
  have hle : 2 ^ k ≤ total / den := (Nat.le_div_iff_mul_le hden).mpr hlow
  have hlt : total / den < 2 ^ (k + 1) := (Nat.div_lt_iff_lt_mul hden).mpr hhigh
  exact (Nat.log2_eq_iff (Nat.ne_of_gt (Nat.lt_of_lt_of_le (Nat.two_pow_pos k) hle))).mpr ⟨hle, hlt⟩

/-- A quotient below the next power of two needs no shift. -/
theorem log2_div_sub {total den : Nat} (hden : 0 < den) (hhigh : total < 2 ^ 53 * den) :
    Nat.log2 (total / den) - 52 = 0 := by
  have hlt : total / den < 2 ^ 53 := (Nat.div_lt_iff_lt_mul hden).mpr hhigh
  obtain hzero | hne := Nat.eq_zero_or_pos (total / den)
  · rw [hzero]
    rfl
  · have hlog := (Nat.log2_lt (Nat.ne_of_gt hne)).mpr hlt
    omega

/-- What the lower end of the interval of a double is. -/
theorem quarters_low (exponent : Fin 2047) (fraction : Fin 4503599627370496) :
    (quarters exponent fraction).1 = 4 * significand exponent fraction -
      (if fraction.val = 0 ∧ 1 < exponent.val then 1 else 2) := rfl

/-- The interval ends half a place above the double. -/
theorem quarters_high (exponent : Fin 2047) (fraction : Fin 4503599627370496) :
    (quarters exponent fraction).2.2 = 4 * significand exponent fraction + 2 := rfl

theorem fractionCount_eq : fractionCount = 2 ^ 52 := rfl

theorem two_pow_add_mul (k den : Nat) : 2 ^ (52 + k) * den = fractionCount * (den * 2 ^ k) := by
  rw [Nat.pow_add, ← fractionCount_eq, Nat.mul_assoc, Nat.mul_comm (2 ^ k)]

theorem two_pow_succ_mul (k den : Nat) :
    2 ^ (52 + k + 1) * den = 2 * (fractionCount * (den * 2 ^ k)) := by
  rw [Nat.pow_succ, Nat.mul_comm (2 ^ (52 + k)), Nat.mul_assoc, two_pow_add_mul]

/-- The rounding of a quotient, once the power of two is known that it is scaled by. -/
theorem ofRatio?_eq {num den power : Nat} (hpower : Nat.log2 (num * unitsPerOne / den) - 52 = power)
    (negative : Bool) :
    ofRatio? negative num den =
      if roundQuotient (num * unitsPerOne) (den * 2 ^ power) = 2 * fractionCount then
        assemble negative fractionCount (power + 1)
      else assemble negative (roundQuotient (num * unitsPerOne) (den * 2 ^ power)) power := by
  subst hpower
  rfl

section

variable {total place : Nat}

/-- A quotient in the interval of a double is less than the next power of two. -/
theorem LiesIn.lt (h : LiesIn exponent fraction total place) (hplace : 0 < place) :
    total < 2 * (fractionCount * place) := by
  have hhigh := h.high
  have hstep : (significand exponent fraction + 1) * place ≤ 2 * fractionCount * place :=
    Nat.mul_le_mul_right _ (significand_lt exponent fraction)
  rw [Nat.succ_mul, Nat.mul_assoc] at hstep
  rw [quarters_high, Nat.add_mul, Nat.mul_assoc] at hhigh
  omega

/-- In places of the double, it is no more than a half away from the significand. -/
theorem LiesIn.roundQuotient_eq (h : LiesIn exponent fraction total place) (hplace : 0 < place) :
    roundQuotient total place = significand exponent fraction := by
  obtain ⟨hlow, hhigh, hends⟩ := h
  have hlower : 4 * significand exponent fraction ≤ (quarters exponent fraction).1 + 2 := by
    rw [quarters_low]
    split <;> omega
  have hstep : 4 * significand exponent fraction * place ≤
      ((quarters exponent fraction).1 + 2) * place := Nat.mul_le_mul_right _ hlower
  rw [quarters_high] at hhigh hends
  rw [Nat.add_mul, Nat.mul_assoc] at hstep hhigh
  rw [Nat.add_mul, Nat.mul_assoc] at hends
  refine Double.roundQuotient_eq hplace (by omega) (by omega) ?_
  exact hends.imp_right fun h => by omega

/-- Below the power of two that a double is, its interval has quotients only if places get narrower
there. -/
theorem LiesIn.below (h : LiesIn exponent fraction total place) (hexponent : 1 < exponent.val)
    (hbelow : total < fractionCount * place) :
    significand exponent fraction = fractionCount ∧ (4 * fractionCount - 1) * place ≤ 4 * total := by
  have hlow := h.low
  have hsize : significand exponent fraction = fractionCount + fraction.val := if_neg (by omega)
  have hfraction : fraction.val = 0 := by
    by_contra hne
    have hlower : 4 * fractionCount + 2 ≤ (quarters exponent fraction).1 := by
      rw [quarters_low, if_neg fun h => hne h.1]
      omega
    have hstep := Nat.mul_le_mul_right place hlower
    rw [Nat.add_mul, Nat.mul_assoc] at hstep
    omega
  have hlower : (quarters exponent fraction).1 = 4 * fractionCount - 1 := by
    rw [quarters_low, if_pos ⟨hfraction, hexponent⟩, hsize, hfraction, Nat.add_zero]
  rw [hlower] at hlow
  exact ⟨by rw [hsize, hfraction, Nat.add_zero], hlow⟩

end

variable {num den : Nat}

/-- A quotient that is scaled like the double is rounded to its significand. -/
theorem ofRatio?_of_scaled (hden : 0 < den)
    (h : LiesIn exponent fraction (num * unitsPerOne) (den * 2 ^ scale exponent))
    (hscaled : fractionCount * (den * 2 ^ scale exponent) ≤ num * unitsPerOne ∨ exponent.val ≤ 1)
    (negative : Bool) : ofRatio? negative num den = some (.finite negative exponent fraction) := by
  have hplace : 0 < den * 2 ^ scale exponent := Nat.mul_pos hden (Nat.two_pow_pos _)
  have hlt := h.lt hplace
  -- The quotient has as many binary digits as the significand has.
  have hpower : Nat.log2 (num * unitsPerOne / den) - 52 = scale exponent := by
    generalize num * unitsPerOne = total at *
    obtain hle | hsmall := hscaled
    · rw [log2_div hden (k := 52 + scale exponent)]
      · omega
      · rw [two_pow_add_mul]
        exact hle
      · rw [two_pow_succ_mul]
        exact hlt
    · have hscale : scale exponent = 0 := by
        rw [scale]
        omega
      rw [hscale] at hlt ⊢
      refine log2_div_sub hden ?_
      have hupper := two_pow_succ_mul 0 den
      omega
  have hsize := significand_lt exponent fraction
  rw [ofRatio?_eq hpower, h.roundQuotient_eq hplace, if_neg (by omega), assemble_eq]

/-- A quotient below the power of two that the double is, where places are narrower, is rounded up to
it. -/
theorem ofRatio?_of_below (hden : 0 < den)
    (h : LiesIn exponent fraction (num * unitsPerOne) (den * 2 ^ scale exponent))
    (hbelow : num * unitsPerOne < fractionCount * (den * 2 ^ scale exponent))
    (hexponent : 1 < exponent.val) (negative : Bool) :
    ofRatio? negative num den = some (.finite negative exponent fraction) := by
  obtain ⟨hsize, hlow⟩ := h.below hexponent hbelow
  have hassemble := assemble_eq negative exponent fraction
  -- Just below a power of two the gap is half as wide, so one place more is read.
  obtain ⟨k, hk⟩ : ∃ k, scale exponent = k + 1 := ⟨exponent.val - 2, by rw [scale]; omega⟩
  have hhalf : den * 2 ^ scale exponent = 2 * (den * 2 ^ k) := by
    rw [hk, Nat.pow_succ, ← Nat.mul_assoc, Nat.mul_comm]
  rw [hhalf, fractionCount] at hlow hbelow
  have hpower : Nat.log2 (num * unitsPerOne / den) - 52 = k := by
    generalize num * unitsPerOne = total at *
    rw [log2_div hden (k := 52 + k)]
    · omega
    · rw [two_pow_add_mul, fractionCount]
      omega
    · rw [two_pow_succ_mul, fractionCount]
      omega
  -- The quotient is rounded up to the power of two, which carries into the exponent.
  have hround : roundQuotient (num * unitsPerOne) (den * 2 ^ k) = 2 * fractionCount := by
    generalize num * unitsPerOne = total at *
    have hplace : 0 < den * 2 ^ k := Nat.mul_pos hden (Nat.two_pow_pos k)
    refine roundQuotient_eq hplace ?_ ?_ (.inl (by decide))
    all_goals
      rw [fractionCount]
      omega
  rw [ofRatio?_eq hpower, hround, if_pos rfl, ← hk]
  rw [hsize] at hassemble
  exact hassemble

/-- A quotient in the interval of a double is rounded to it. -/
theorem ofRatio?_of_rounds (hden : 0 < den) (h : Rounds exponent fraction (num / den))
    (negative : Bool) : ofRatio? negative num den = some (.finite negative exponent fraction) := by
  have hlies := h.liesIn hden
  by_cases hscaled : fractionCount * (den * 2 ^ scale exponent) ≤ num * unitsPerOne ∨ exponent.val ≤ 1
  · exact ofRatio?_of_scaled hden hlies hscaled negative
  · obtain ⟨hbelow, hexponent⟩ := not_or.mp hscaled
    exact ofRatio?_of_below hden hlies (not_le.mp hbelow) (not_le.mp hexponent) negative

/-! ## Decimals -/

theorem four_mul_units (q : ℚ) : 4 * (q * 2 ^ 1074) = q * 2 ^ 1076 := by
  have hpower : (2 : ℚ) ^ 1076 = 2 ^ 1074 * 2 ^ 2 := pow_add 2 1074 2
  rw [hpower]
  generalize (2 : ℚ) ^ 1074 = units
  ring

/-- A number in the interval of a double that is not zero is at least a quarter of the smallest positive
double. -/
theorem Rounds.one_le {q : ℚ} (h : Rounds exponent fraction q)
    (hsize : 0 < significand exponent fraction) : 1 ≤ q * 2 ^ 1076 := by
  have hlow : 1 ≤ (quarters exponent fraction).1 := by
    rw [quarters_low]
    split <;> omega
  have hone : (1 : ℚ) ≤ (quarters exponent fraction).1 * 2 ^ scale exponent :=
    one_le_mul_of_one_le_of_one_le (by exact_mod_cast hlow) (one_le_pow₀ one_le_two)
  rw [← four_mul_units]
  exact hone.trans h.low

/-- A number in the interval of a double is at most twice the largest power of two. -/
theorem Rounds.le {q : ℚ} (h : Rounds exponent fraction q) : q ≤ 2 ^ 1024 := by
  have hhigh : (quarters exponent fraction).2.2 ≤ 2 ^ 55 := by
    have hlt := significand_lt exponent fraction
    rw [quarters_high]
    rw [fractionCount] at hlt
    omega
  have hscale : (2 : ℚ) ^ scale exponent ≤ 2 ^ 2045 :=
    pow_le_pow_right₀ one_le_two (by rw [scale]; omega)
  have hbound : q * 2 ^ 1076 ≤ 2 ^ 55 * 2 ^ 2045 := by
    rw [← four_mul_units]
    exact h.high.trans (mul_le_mul (by exact_mod_cast hhigh) hscale (by positivity) (by positivity))
  have hpowers : (2 : ℚ) ^ 55 * 2 ^ 2045 = 2 ^ 1024 * 2 ^ 1076 :=
    (pow_add 2 55 2045).symm.trans (pow_add 2 1024 1076)
  rw [hpowers] at hbound
  exact le_of_mul_le_mul_right hbound (pow_pos two_pos 1076)

/-- Three binary places are less than a decimal one. -/
theorem two_pow_le_ten_pow (n : ℕ) : (2 : ℚ) ^ (3 * n) ≤ 10 ^ n := by
  rw [pow_mul]
  exact pow_le_pow_left₀ (by norm_num) (by norm_num) n

theorem cast_ten_pow (n : ℕ) : ((Nat.pow 10 n : ℕ) : ℚ) = 10 ^ n :=
  (Nat.cast_pow 10 n).trans (by rw [Nat.cast_ofNat])

/-- So large a power of ten is beyond the largest double. -/
theorem Rounds.power_le {digits n : ℕ} (hdigits : 0 < digits)
    (h : Rounds exponent fraction (digits * 10 ^ n)) : n ≤ 400 := by
  have hcast : (1 : ℚ) ≤ digits := by exact_mod_cast hdigits
  have hpowers : (2 : ℚ) ^ (3 * n) ≤ 2 ^ 1024 :=
    calc (2 : ℚ) ^ (3 * n) ≤ 10 ^ n := two_pow_le_ten_pow n
      _ ≤ digits * 10 ^ n := le_mul_of_one_le_left (by positivity) hcast
      _ ≤ 2 ^ 1024 := h.le
  have hexponents := (pow_le_pow_iff_right₀ one_lt_two).mp hpowers
  omega

/-- So small a power of ten is below the smallest double. -/
theorem Rounds.places_le {digits n : ℕ} (hsize : 0 < significand exponent fraction)
    (h : Rounds exponent fraction (digits / 10 ^ n)) : n ≤ 400 + Nat.log2 digits := by
  have hone := h.one_le hsize
  have hdigits : (digits : ℚ) < 2 ^ (Nat.log2 digits + 1) := by
    exact_mod_cast Nat.lt_log2_self
  have hpowers : (2 : ℚ) ^ (3 * n) < 2 ^ (Nat.log2 digits + 1 + 1076) := by
    rw [div_mul_eq_mul_div, le_div_iff₀ (by positivity), one_mul] at hone
    rw [pow_add]
    calc (2 : ℚ) ^ (3 * n) ≤ 10 ^ n := two_pow_le_ten_pow n
      _ ≤ digits * 2 ^ 1076 := hone
      _ < 2 ^ (Nat.log2 digits + 1) * 2 ^ 1076 :=
        mul_lt_mul_of_pos_right hdigits (pow_pos two_pos 1076)
  have hexponents := (pow_lt_pow_iff_right₀ one_lt_two).mp hpowers
  omega

/-- A decimal in the interval of a double that is not zero is read as it. -/
theorem ofDecimal_of_rounds {digits : Nat} {power : ℤ} (hdigits : 0 < digits)
    (hsize : 0 < significand exponent fraction) (h : Rounds exponent fraction (digits * 10 ^ power))
    (negative : Bool) : ofDecimal negative digits power = .finite negative exponent fraction := by
  rw [ofDecimal, if_neg (Nat.ne_of_gt hdigits)]
  obtain hnonnegative | hnegative := le_or_gt 0 power
  · obtain ⟨n, rfl⟩ := Int.eq_ofNat_of_zero_le hnonnegative
    rw [zpow_natCast] at h
    -- A number that rounds to a finite double is not cut off for its size.
    have hbound := h.power_le hdigits
    have hratio : Rounds exponent fraction ((digits * Nat.pow 10 n : ℕ) / (1 : ℕ)) := by
      rw [Nat.cast_one, div_one, Nat.cast_mul, cast_ten_pow]
      exact h
    rw [if_neg (by omega), if_neg (by omega), if_neg (by omega), Int.toNat_natCast,
      ofRatio?_of_rounds Nat.one_pos hratio]
    rfl
  · obtain ⟨n, rfl⟩ := Int.exists_eq_neg_ofNat hnegative.le
    rw [zpow_neg, zpow_natCast, ← div_eq_mul_inv] at h
    -- It is not cut off for its places either.
    have hbound := h.places_le hsize
    have hratio : Rounds exponent fraction (digits / (Nat.pow 10 n : ℕ)) := by
      rw [cast_ten_pow]
      exact h
    have hpositive : 0 < Nat.pow 10 n := Nat.pow_pos (by decide)
    rw [if_neg (by omega), if_neg (by omega), if_pos (by omega), Int.natAbs_neg, Int.natAbs_natCast,
      ofRatio?_of_rounds hpositive hratio]
    rfl

end RecordStore.Double
