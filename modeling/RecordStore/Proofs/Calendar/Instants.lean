import Mathlib.Data.List.Lex
import RecordStore.Proofs.Calendar.Ordinal

/-!
# The order of instants

Later dates and readings have larger numbers, where later is what the numbers of year, month, day
and time of day say, from the largest unit down (`DateTime.compares_shown`). And no number is left out:
each day from the first of the year 1 to the last of the year 9999 has its date
(`Date.exists_ordinal`), each microsecond between them its reading (`DateTime.exists_micros`). So a
moment can be read on a clock of universal time whenever it lies in these years.
-/

namespace RecordStore

namespace Calendar

/-- A number above the first of some counts and not above the last one lies between two counts that
follow each other. -/
theorem exists_between (count : ℕ → ℕ) {first last n : ℕ} (hle : first ≤ last)
    (hfirst : count first < n) (hlast : n ≤ count last) :
    ∃ k, first ≤ k ∧ k < last ∧ count k < n ∧ n ≤ count (k + 1) := by
  -- The last count that is counted on is above the number, or the number lies right behind it.
  induction last, hle using Nat.le_induction with
  | base => omega
  | succ last hle ih =>
    by_cases hbelow : n ≤ count last
    · obtain ⟨k, hk, hlt, hcounts⟩ := ih hbelow
      exact ⟨k, hk, by omega, hcounts⟩
    · exact ⟨last, hle, by omega, by omega, hlast⟩

end Calendar

namespace Date

open Calendar

/-- Year, month and day. -/
def shown (d : Date) : List ℕ := [d.year, d.month, d.day]

theorem shown_injective : Function.Injective shown := by
  intro d e h
  cases d
  cases e
  simpa [shown] using h

/-- A later date has a larger number. -/
theorem ordinal_lt_of_shown {d e : Date} (h : d.shown < e.shown) : d.ordinal < e.ordinal := by
  obtain ⟨⟨hyear, -⟩, ⟨hmonth, -⟩, hday, hlast⟩ := d.isDate
  have hbefore := d.before_lt_daysInYear
  simp only [shown, List.cons_lt_cons_iff, List.not_lt_nil, and_false, or_false] at h
  rw [ordinal_eq, ordinal_eq]
  -- The first of the numbers that differs decides: all days of its unit are before the later unit.
  obtain hlater | ⟨hsame, hlater | ⟨hsame', hlater⟩⟩ := h
  · have hyears := daysBeforeYear_mono (by omega : 1 ≤ d.year + 1) hlater
    rw [daysBeforeYear_succ hyear] at hyears
    omega
  · have hmonths := daysBeforeMonth_mono d.year (by omega : 1 ≤ d.month + 1) hlater
    rw [daysBeforeMonth_succ d.year hmonth] at hmonths
    rw [← hsame]
    omega
  · rw [← hsame, ← hsame']
    omega

/-- Each day of the calendar has its date. -/
theorem exists_ordinal {n : ℕ} (hfirst : 1 ≤ n) (hlast : n ≤ 3652059) :
    ∃ d : Date, d.ordinal = n := by
  -- The year is looked for among all days, and the month among what the years before it leave.
  obtain ⟨year, hyear, hyear', hafter, hbefore⟩ :=
    exists_between daysBeforeYear (by decide : 1 ≤ 10000) hfirst hlast
  rw [daysBeforeYear_succ hyear, ← daysBeforeMonth_end] at hbefore
  obtain ⟨month, hmonth, hmonth', hafter', hbefore'⟩ :=
    exists_between (daysBeforeMonth year) (n := n - daysBeforeYear year) (by decide : 1 ≤ 13)
      (Nat.sub_pos_of_lt hafter) (by omega)
  rw [daysBeforeMonth_succ year hmonth] at hbefore'
  have hdate : IsDate year month (n - daysBeforeYear year - daysBeforeMonth year month) :=
    ⟨⟨hyear, by omega⟩, ⟨hmonth, by omega⟩, by omega, by omega⟩
  refine ⟨⟨_, _, _, hdate⟩, ?_⟩
  change daysBeforeYear year + daysBeforeMonth year month +
    (n - daysBeforeYear year - daysBeforeMonth year month) = n
  omega

end Date

namespace DateTime

open Calendar

/-- The first reading of the year 1. -/
def first : DateTime := ⟨⟨1, 1, 1, by decide⟩, midnight⟩

/-- The last reading of the year 9999. -/
def last : DateTime := ⟨⟨9999, 12, 31, by decide⟩, ⟨86399999999, by decide⟩⟩

/-- The calendar begins on the first of January of year 1. -/
theorem first_micros : first.micros = -62135596800000000 := by decide +kernel

/-- The calendar ends with year 9999. -/
theorem last_micros : last.micros = 253402300799999999 := by decide +kernel

/-- What a reading shows, from the largest unit down. -/
def shown (t : DateTime) : List ℕ :=
  [t.date.year, t.date.month, t.date.day, t.hour, t.minute, t.second, t.micro]

/-- A later reading has more microseconds. -/
theorem micros_lt_of_shown {t u : DateTime} (h : t.shown < u.shown) : t.micros < u.micros := by
  have htime : t.time.val < 86400000000 := t.time.isLt
  have htime' : u.time.val < 86400000000 := u.time.isLt
  simp only [shown, List.cons_lt_cons_iff, List.not_lt_nil, and_false, or_false] at h
  obtain hdate | ⟨hdate, hclock⟩ : t.date.shown < u.date.shown ∨ t.date.shown = u.date.shown ∧
      (t.hour < u.hour ∨ t.hour = u.hour ∧ (t.minute < u.minute ∨ t.minute = u.minute ∧
        (t.second < u.second ∨ t.second = u.second ∧ t.micro < u.micro))) := by
    simp only [Date.shown, List.cons_lt_cons_iff, List.cons.injEq, List.not_lt_nil, and_false,
      or_false, and_true]
    tauto
  -- A day is longer than any time of day, so the date decides.
  · have hordinal := Date.ordinal_lt_of_shown hdate
    rw [micros, micros, show ((microsPerDay : ℕ) : ℤ) = 86400000000 from rfl]
    omega
  · rw [micros, micros, Date.shown_injective hdate]
    simp only [hour, minute, second, micro] at hclock
    omega

theorem shown_injective : Function.Injective shown := by
  intro t u h
  obtain ⟨date, time⟩ := t
  obtain ⟨date', time'⟩ := u
  simp only [shown, hour, minute, second, micro, List.cons.injEq, and_true] at h
  obtain ⟨hyear, hmonth, hday, hclock⟩ := h
  have hdate : date = date' :=
    Date.shown_injective (by rw [Date.shown, Date.shown, hyear, hmonth, hday])
  have htime : time = time' := Fin.ext (by omega)
  rw [hdate, htime]

/-- Readings are in the order of their microseconds. -/
theorem compares_shown (t u : DateTime) : (Ord.compare t.micros u.micros).Compares t.shown u.shown := by
  obtain hlt | heq | hgt := lt_trichotomy t.shown u.shown
  · rw [Int.compare_eq_lt.mpr (micros_lt_of_shown hlt)]
    exact hlt
  · rw [shown_injective heq, Int.compare_eq_eq.mpr rfl]
    exact rfl
  · rw [Int.compare_eq_gt.mpr (micros_lt_of_shown hgt)]
    exact hgt

/-- Each microsecond of the calendar has its reading. -/
theorem exists_micros {n : ℤ} (hfirst : first.micros ≤ n) (hlast : n ≤ last.micros) :
    ∃ t : DateTime, t.micros = n := by
  rw [first_micros] at hfirst
  rw [last_micros] at hlast
  have hepoch : epochDay = 719163 := rfl
  obtain ⟨date, hdate⟩ := Date.exists_ordinal (n := (n / 86400000000 + epochDay).toNat)
    (by omega) (by omega)
  have htime : (n % 86400000000).toNat < 86400000000 := by omega
  refine ⟨⟨date, ⟨_, htime⟩⟩, ?_⟩
  change ((date.ordinal : ℤ) - epochDay) * 86400000000 + ((n % 86400000000).toNat : ℕ) = n
  omega

end DateTime

namespace Moment

/-- The moment lies in the years 1 to 9999 of universal time. -/
def InCalendar (m : Moment) : Prop :=
  DateTime.first.micros ≤ m.micros ∧ m.micros ≤ DateTime.last.micros

instance (m : Moment) : Decidable m.InCalendar := by
  unfold InCalendar
  infer_instance

/-- A clock of universal time can show each moment of the calendar. -/
theorem exists_toUniversal? {m : Moment} (h : m.InCalendar) :
    ∃ u : Moment, m.toUniversal? = some u ∧ u.clock = .universal ∧ u.micros = m.micros := by
  obtain ⟨t, ht⟩ := DateTime.exists_micros h.1 h.2
  refine ⟨⟨t, .universal⟩, ?_, rfl, ?_⟩
  · rw [toUniversal?, ofMicros?, ← ht, DateTime.ofMicros?_micros]
    rfl
  · rw [micros_of_universal rfl, ht]

end Moment

end RecordStore
