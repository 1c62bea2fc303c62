import Mathlib.Order.Monotone.Basic
import RecordStore.Calendar.DateTime

/-!
# Day numbers

Dates and the numbers of their days tell each other (`Date.ofOrdinal?_ordinal`), and so do readings
of a clock and their microseconds (`DateTime.ofMicros?_micros`). A year is found from the cycle of
400 years, the century, the fourth year and the single year that hold the day; a month by going
through the months before it.
-/

namespace RecordStore

namespace Calendar

/-- The days of a year. -/
def daysInYear (year : Nat) : Nat := 365 + if isLeapYear year then 1 else 0

/-! ## Years -/

/-- A year adds its own days to those before it. -/
theorem daysBeforeYear_succ {year : Nat} (h : 1 ≤ year) :
    daysBeforeYear (year + 1) = daysBeforeYear year + daysInYear year := by
  -- Each of the three quotients goes up with the years that its divisor divides.
  have hstep (n : Nat) : year / n = (year - 1) / n + if year % n = 0 then 1 else 0 := by
    obtain ⟨past, rfl⟩ := Nat.exists_eq_add_of_le' h
    simp only [Nat.succ_div, Nat.dvd_iff_mod_eq_zero, Nat.add_sub_cancel]
  have hleap : (if isLeapYear year then 1 else 0) + (if year % 100 = 0 then 1 else 0) =
      (if year % 4 = 0 then 1 else 0) + if year % 400 = 0 then 1 else 0 := by
    have hcentury : year % 100 = 0 → year % 4 = 0 := by omega
    have hcycle : year % 400 = 0 → year % 100 = 0 := by omega
    simp only [isLeapYear, Bool.and_eq_true, Bool.or_eq_true, decide_eq_true_eq]
    grind
  have hcenturies : (year - 1) / 100 ≤ year - 1 := Nat.div_le_self _ _
  have hone : (if year % 100 = 0 then 1 else 0) ≤ 1 := by split <;> decide
  rw [daysBeforeYear, daysBeforeYear, daysInYear, Nat.add_sub_cancel, hstep 4, hstep 100, hstep 400]
  generalize (if isLeapYear year then 1 else 0) = leap at *
  generalize (year - 1) / 4 = fours at *
  generalize (year - 1) / 100 = centuries at *
  generalize (year - 1) / 400 = cycles at *
  omega

theorem daysBeforeYear_mono {year later : Nat} (hyear : 1 ≤ year) (hlater : year ≤ later) :
    daysBeforeYear year ≤ daysBeforeYear later :=
  Nat.rel_of_forall_rel_succ_of_le_of_le (· ≤ ·)
    (fun y hy => by rw [daysBeforeYear_succ hy]; exact Nat.le_add_right _ _) hyear hlater

/-! ## Months -/

/-- A month adds its own days to those before it. -/
theorem daysBeforeMonth_succ (year : Nat) {month : Nat} (h : 1 ≤ month) :
    daysBeforeMonth year (month + 1) = daysBeforeMonth year month + daysInMonth year month := by
  rw [daysBeforeMonth, if_neg (by omega)]

theorem daysBeforeMonth_mono (year : Nat) {month later : Nat} (hmonth : 1 ≤ month)
    (hlater : month ≤ later) : daysBeforeMonth year month ≤ daysBeforeMonth year later :=
  Nat.rel_of_forall_rel_succ_of_le_of_le (· ≤ ·)
    (fun m hm => by rw [daysBeforeMonth_succ year hm]; exact Nat.le_add_right _ _) hmonth hlater

/-- Twelve months make a year. -/
theorem daysBeforeMonth_end (year : Nat) : daysBeforeMonth year 13 = daysInYear year := by
  have hmonths : daysBeforeMonth year 13 =
      0 + 31 + daysInMonth year 2 + 31 + 30 + 31 + 30 + 31 + 31 + 30 + 31 + 30 + 31 := rfl
  rw [hmonths, daysInMonth, daysInYear]
  split <;> rfl

/-- A day of a month is a day of the year. -/
theorem day_lt_daysInYear {year month before : Nat} (hmonth : 1 ≤ month ∧ month ≤ 12)
    (hbefore : before < daysInMonth year month) :
    daysBeforeMonth year month + before < daysInYear year := by
  have hend := daysBeforeMonth_mono year (by omega : 1 ≤ month + 1) (by omega : month + 1 ≤ 13)
  rw [daysBeforeMonth_end, daysBeforeMonth_succ year hmonth.1] at hend
  omega

end Calendar

namespace Date

open Calendar

/-- Going through the months from one on finds the month of a later day. -/
theorem splitMonth_eq (year : Nat) {fuel start month before : Nat} (hstart : 1 ≤ start)
    (hmonth : start ≤ month) (hfuel : month ≤ start + fuel)
    (hbefore : before < daysInMonth year month) :
    splitMonth year fuel start
      (daysBeforeMonth year month - daysBeforeMonth year start + before) = (month, before) := by
  induction fuel generalizing start with
  | zero =>
    obtain rfl : start = month := by omega
    rw [splitMonth, Nat.sub_self, Nat.zero_add]
  | succ fuel ih =>
    obtain rfl | hlt := Nat.eq_or_lt_of_le hmonth
    · rw [splitMonth, Nat.sub_self, Nat.zero_add]
      exact if_pos hbefore
    · -- The day lies behind this month, which is left out.
      have hlater := daysBeforeMonth_mono year (by omega) hlt
      rw [Nat.succ_eq_add_one, daysBeforeMonth_succ year hstart] at hlater
      have hskip := ih (by omega : 1 ≤ start + 1) hlt (by omega)
      rw [daysBeforeMonth_succ year hstart] at hskip
      rw [splitMonth, if_neg (by omega), ← hskip]
      congr 1
      omega

/-- The days before a year, by cycles of 400 years, centuries, fourth years and single years. -/
theorem daysBeforeYear_eq (cycle century four single : Nat) (hcentury : century < 4)
    (hfour : four < 25) (hsingle : single < 4) :
    daysBeforeYear (400 * cycle + 100 * century + 4 * four + single + 1) =
      146097 * cycle + 36524 * century + 1461 * four + 365 * single := by
  rw [daysBeforeYear]
  omega

/-- The last years of the fourth years are the leap years, but for those that end a century and no
cycle. -/
theorem isLeapYear_eq (cycle century four single : Nat) (hcentury : century < 4)
    (hfour : four < 25) (hsingle : single < 4) :
    isLeapYear (400 * cycle + 100 * century + 4 * four + single + 1) =
      (single = 3 && (four ≠ 24 || century = 3)) := by
  rw [isLeapYear, Bool.eq_iff_iff]
  simp only [Bool.and_eq_true, Bool.or_eq_true, decide_eq_true_eq]
  omega

/-- A day is found in its year. -/
theorem splitYear_eq {year before : Nat} (hyear : 1 ≤ year) (hbefore : before < daysInYear year) :
    splitYear (daysBeforeYear year + before) = (year, before) := by
  obtain ⟨cycle, century, four, single, hcentury, hfour, hsingle, rfl⟩ :
      ∃ cycle century four single, century < 4 ∧ four < 25 ∧ single < 4 ∧
        year = 400 * cycle + 100 * century + 4 * four + single + 1 := by
    refine ⟨(year - 1) / 400, (year - 1) % 400 / 100, (year - 1) % 100 / 4, (year - 1) % 4, ?_⟩
    omega
  -- Only the last day of a leap year needs care: it is the last one of its fourth year.
  have hlong : before < 365 ∨ before = 365 ∧ single = 3 ∧ (four ≠ 24 ∨ century = 3) := by
    rw [daysInYear, isLeapYear_eq _ _ _ _ hcentury hfour hsingle] at hbefore
    split at hbefore
    · next hleap =>
      have hlast : single = 3 ∧ (four ≠ 24 ∨ century = 3) := by simpa using hleap
      omega
    · exact .inl hbefore
  rw [daysBeforeYear_eq _ _ _ _ hcentury hfour hsingle, splitYear]
  generalize hday : 146097 * cycle + 36524 * century + 1461 * four + 365 * single + before = day
  have hcycle : day / 146097 = cycle := by omega
  have hinCycle : day % 146097 = 36524 * century + 1461 * four + 365 * single + before := by omega
  have hcenturies : min (day % 146097 / 36524) 3 = century := by omega
  have hinCentury : day % 146097 - century * 36524 = 1461 * four + 365 * single + before := by omega
  have hfours : (day % 146097 - century * 36524) / 1461 = four := by omega
  have hinFour : (day % 146097 - century * 36524) % 1461 = 365 * single + before := by omega
  have hsingles : min ((365 * single + before) / 365) 3 = single := by omega
  simp only [hcycle, hcenturies, hfours, hinFour, hsingles]
  congr 1
  omega

/-- The number of a day, counted from the beginning of its year and month. -/
theorem ordinal_eq (d : Date) :
    d.ordinal = daysBeforeYear d.year + (daysBeforeMonth d.year d.month + (d.day - 1)) + 1 := by
  have hday : 1 ≤ d.day := d.isDate.2.2.1
  rw [ordinal]
  omega

/-- A date lies within its year. -/
theorem before_lt_daysInYear (d : Date) :
    daysBeforeMonth d.year d.month + (d.day - 1) < daysInYear d.year := by
  obtain ⟨-, hmonth, hday, hlast⟩ := d.isDate
  exact day_lt_daysInYear hmonth (by omega)

/-- A date is found from the number of its day. -/
theorem ofOrdinal?_ordinal (d : Date) : ofOrdinal? d.ordinal = some d := by
  obtain ⟨⟨hyear, -⟩, hmonth, hday, hlast⟩ := d.isDate
  have hmonths := splitMonth_eq d.year (by omega : 1 ≤ 1) hmonth.1 (by omega : d.month ≤ 1 + 11)
    (by omega : d.day - 1 < daysInMonth d.year d.month)
  have hfirst : daysBeforeMonth d.year 1 = 0 := rfl
  rw [hfirst, Nat.sub_zero] at hmonths
  rw [ofOrdinal?, ordinal_eq, if_neg (Nat.succ_ne_zero _), Nat.add_sub_cancel,
    splitYear_eq hyear d.before_lt_daysInYear]
  simp only [hmonths, Nat.sub_add_cancel hday]
  exact dif_pos d.isDate

/-- Dates are numbered from the first day of the year 1 to the last one of the year 9999. -/
theorem ordinal_bounds (d : Date) : 1 ≤ d.ordinal ∧ d.ordinal ≤ 3652059 := by
  obtain ⟨⟨hyear, hlast⟩, -⟩ := d.isDate
  have hbefore := d.before_lt_daysInYear
  have hend : daysBeforeYear (d.year + 1) ≤ 3652059 :=
    daysBeforeYear_mono (by omega : 1 ≤ d.year + 1) (by omega : d.year + 1 ≤ 10000)
  rw [daysBeforeYear_succ hyear] at hend
  rw [ordinal_eq]
  omega

end Date

namespace DateTime

open Calendar

/-- The day of a reading, counted from the beginning of 1970. -/
theorem micros_div (t : DateTime) :
    t.micros / (microsPerDay : Int) = (t.date.ordinal : Int) - epochDay := by
  have htime : t.time.val < 86400000000 := t.time.isLt
  rw [micros, show ((microsPerDay : Nat) : Int) = 86400000000 from rfl]
  omega

/-- A reading is found from its microseconds. -/
theorem ofMicros?_micros (t : DateTime) : ofMicros? t.micros = some t := by
  have htime : t.time.val < 86400000000 := t.time.isLt
  have hordinal := t.date.ordinal_bounds
  have hday : t.micros / (microsPerDay : Int) + epochDay = t.date.ordinal := by
    rw [micros_div]
    omega
  have hrest : t.micros % (microsPerDay : Int) = t.time.val := by
    rw [micros, show ((microsPerDay : Nat) : Int) = 86400000000 from rfl]
    omega
  rw [ofMicros?]
  simp only [hday, hrest, Int.toNat_natCast, Date.ofOrdinal?_ordinal]
  rw [if_neg (by omega)]
  simp

end DateTime

namespace Moment

variable {m : Moment}

/-- On a clock of universal time, the instant is what the clock itself shows. -/
theorem micros_of_universal (h : m.clock = .universal) : m.micros = m.reading.micros := by
  rw [micros, offset, h]
  exact Int.sub_zero _

/-- A moment on a clock of universal time is found from its microseconds. -/
theorem ofMicros?_micros (h : m.clock = .universal) : ofMicros? m.micros = some m := by
  rw [ofMicros?, micros_of_universal h, DateTime.ofMicros?_micros, Option.map_some, ← h]

end Moment

end RecordStore
