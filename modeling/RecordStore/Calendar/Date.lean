/-!
# Dates

Dates of the Gregorian calendar, carried back to the year 1 and on to the year 9999, and the count
of days that orders them: day 1 is the first of January of the year 1.
-/

namespace RecordStore

namespace Calendar

/-- Every fourth year is a long one, but of the last years of centuries only every fourth. -/
def isLeapYear (year : Nat) : Bool := year % 4 = 0 && (year % 100 ≠ 0 || year % 400 = 0)

/-- The days of a month of a year. -/
def daysInMonth (year month : Nat) : Nat :=
  match month with
  | 2 => if isLeapYear year then 29 else 28
  | 4 | 6 | 9 | 11 => 30
  | _ => 31

/-- The days of a year before a month. -/
def daysBeforeMonth (year : Nat) : Nat → Nat
  | 0 => 0
  | month + 1 => if month = 0 then 0 else daysBeforeMonth year month + daysInMonth year month

/-- The days before a year, counted from the year 1. -/
def daysBeforeYear (year : Nat) : Nat :=
  let past := year - 1
  365 * past + past / 4 - past / 100 + past / 400

/-- A year, month and day that the calendar has. -/
def IsDate (year month day : Nat) : Prop :=
  (1 ≤ year ∧ year ≤ 9999) ∧ (1 ≤ month ∧ month ≤ 12) ∧ 1 ≤ day ∧ day ≤ daysInMonth year month

instance (year month day : Nat) : Decidable (IsDate year month day) := by
  unfold IsDate
  infer_instance

end Calendar

/-- A day of the calendar. -/
structure Date where
  year : Nat
  month : Nat
  day : Nat
  isDate : Calendar.IsDate year month day
  deriving DecidableEq

namespace Date

/-- The day of a year, month and day, if the calendar has it. -/
def make? (year month day : Nat) : Option Date :=
  if h : Calendar.IsDate year month day then some ⟨year, month, day, h⟩ else none

/-- The number of the day, counted from the first of January of the year 1. -/
def ordinal (d : Date) : Nat :=
  Calendar.daysBeforeYear d.year + Calendar.daysBeforeMonth d.year d.month + d.day

/-- The year that holds day `n`, counted from zero, and the days of that year before it. The
calendar repeats after 400 years; in there, the last century and the last year of each fourth year
are the long ones. -/
def splitYear (n : Nat) : Nat × Nat :=
  let cycle := n / 146097
  let inCycle := n % 146097
  -- The last day of a cycle, and of a fourth year, divides into one too many.
  let century := min (inCycle / 36524) 3
  let inCentury := inCycle - century * 36524
  let four := inCentury / 1461
  let inFour := inCentury % 1461
  let single := min (inFour / 365) 3
  (400 * cycle + 100 * century + 4 * four + single + 1, inFour - single * 365)

/-- The month that holds a day of a year, counted from zero, and the days of the month before it;
the months from `month` on are tried, as many as `fuel`. -/
def splitMonth (year : Nat) : Nat → Nat → Nat → Nat × Nat
  | 0, month, n => (month, n)
  | fuel + 1, month, n =>
    let length := Calendar.daysInMonth year month
    if n < length then (month, n) else splitMonth year fuel (month + 1) (n - length)

/-- The date of a day number, if it is not after the year 9999. -/
def ofOrdinal? (n : Nat) : Option Date :=
  if n = 0 then none
  else
    let (year, rest) := splitYear (n - 1)
    let (month, before) := splitMonth year 11 1 rest
    make? year month (before + 1)

/-- The number of the day of the week, zero for Monday. -/
def weekday (d : Date) : Nat := (d.ordinal + 6) % 7

/-- A number with zeros before it, up to a width. -/
def padded (width n : Nat) : String :=
  let digits := (toString n).toList
  String.ofList (List.replicate (width - digits.length) '0' ++ digits)

/-- Year, month and day divided by hyphens. -/
def toText (d : Date) : String :=
  padded 4 d.year ++ "-" ++ padded 2 d.month ++ "-" ++ padded 2 d.day

end Date

end RecordStore
