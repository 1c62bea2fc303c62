import RecordStore.Calendar.Date

/-!
# Readings of a clock

A `DateTime` is a date with a time of day, as a clock on a wall shows it. A `Moment` is such a
reading together with the clock, whose offset from universal time is known, so it names a point of
time. Both are counted in microseconds from the beginning of 1970. Two readings of the clock of one
region compare as that clock shows them, although its offset may have changed in between; all others
compare as points of time.
-/

namespace RecordStore

/-- The microseconds of a day. -/
abbrev Calendar.microsPerDay : Nat := 86400000000

/-- The beginning of a day. -/
def Calendar.midnight : Fin Calendar.microsPerDay := 0

/-- A date and the microseconds since its midnight. -/
structure DateTime where
  date : Date
  time : Fin Calendar.microsPerDay
  deriving DecidableEq

namespace DateTime

/-- The hour of the day, from zero on. -/
def hour (t : DateTime) : Nat := t.time.val / 3600000000

/-- The minute of the hour. -/
def minute (t : DateTime) : Nat := t.time.val / 60000000 % 60

/-- The second of the minute. -/
def second (t : DateTime) : Nat := t.time.val / 1000000 % 60

/-- The microsecond of the second. -/
def micro (t : DateTime) : Nat := t.time.val % 1000000

/-- The reading of the given date and time of day, if both exist. -/
def make? (date : Date) (hour minute second micro : Nat) : Option DateTime :=
  if hour < 24 ∧ minute < 60 ∧ second < 60 ∧ micro < 1000000 then
    some ⟨date, Fin.ofNat _ (((hour * 60 + minute) * 60 + second) * 1000000 + micro)⟩
  else none

/-- The number of the first day of 1970. -/
def epochDay : Nat := 719163

/-- The microseconds from the beginning of 1970 to this reading of the same clock. -/
def micros (t : DateTime) : Int :=
  ((t.date.ordinal : Int) - epochDay) * Calendar.microsPerDay + t.time.val

/-- The reading after so many microseconds since the beginning of 1970; `none` outside the years 1
to 9999. -/
def ofMicros? (n : Int) : Option DateTime := do
  let day := n / (Calendar.microsPerDay : Int) + epochDay
  if day < 1 then none
  else
    let date ← Date.ofOrdinal? day.toNat
    return ⟨date, Fin.ofNat _ (n % (Calendar.microsPerDay : Int)).toNat⟩

/-- Hours, minutes, seconds, and the microseconds if there are any. -/
def timeText (t : DateTime) : String :=
  Date.padded 2 t.hour ++ ":" ++ Date.padded 2 t.minute ++ ":" ++ Date.padded 2 t.second ++
    (if t.micro = 0 then "" else "." ++ Date.padded 6 t.micro)

/-- Date and time of day with a mark between them. -/
def toText (mark : String) (t : DateTime) : String := t.date.toText ++ mark ++ t.timeText

end DateTime

/-- A clock, by how far it runs ahead of universal time. -/
inductive Clock
  /-- It runs ahead by so many microseconds at all times. -/
  | fixed (offset : Int)
  /-- It shows the time of a region, and runs ahead by so many microseconds at the reading that is
  looked at. That reading is ambiguous if the clock shows it twice, or skips it, with one offset
  before and another one after it; it is repeated if the second offset is meant. -/
  | regional (region : String) (offset : Int) (ambiguous repeated : Bool)
  deriving DecidableEq

namespace Clock

/-- The clock of universal time. -/
def universal : Clock := .fixed 0

instance : OfNat Clock 0 := ⟨universal⟩

/-- The microseconds that a clock runs ahead of universal time. -/
def offset : Clock → Int
  | .fixed offset | .regional _ offset _ _ => offset

/-- Whether the reading has one offset of its clock before it, and another one after it. -/
def isAmbiguous : Clock → Bool
  | .fixed _ => false
  | .regional _ _ ambiguous _ => ambiguous

/-- Whether the second of two offsets is meant. -/
def isRepeated : Clock → Bool
  | .fixed _ => false
  | .regional _ _ _ repeated => repeated

/-- Whether both are the clock of one region. -/
def isShared : Clock → Clock → Bool
  | .regional region _ _ _, .regional other _ _ _ => region = other
  | _, _ => false

end Clock

/-- A reading of a clock. -/
structure Moment where
  reading : DateTime
  clock : Clock
  deriving DecidableEq

namespace Moment

/-- The microseconds that the clock runs ahead of universal time. -/
def offset (m : Moment) : Int := m.clock.offset

/-- The microseconds of universal time from the beginning of 1970 to the moment. -/
def micros (m : Moment) : Int := m.reading.micros - m.offset

/-- The moment after so many microseconds since the beginning of 1970, read on a clock of universal
time. -/
def ofMicros? (n : Int) : Option Moment := (DateTime.ofMicros? n).map (⟨·, .universal⟩)

/-- The order of two moments. -/
def compare (a b : Moment) : Ordering :=
  -- On the clock of one region it is the reading that counts, whatever its offset was.
  if a.clock.isShared b.clock then Ord.compare a.reading.micros b.reading.micros
  else Ord.compare a.micros b.micros

/-- Whether two moments are equal; an ambiguous reading equals none of another clock. -/
def same (a b : Moment) : Bool :=
  a.compare b = .eq &&
    (a.clock.isShared b.clock || !(a.clock.isAmbiguous || b.clock.isAmbiguous))

/-- The same point of time on a clock of universal time; `none` when that is outside the years 1 to
9999. -/
def toUniversal? (m : Moment) : Option Moment := ofMicros? m.micros

/-- A sign, hours, minutes, and seconds if the offset has any. -/
def offsetText (offset : Int) : String :=
  let size := offset.natAbs
  let seconds := size / 1000000
  (if offset < 0 then "-" else "+") ++ Date.padded 2 (seconds / 3600) ++ ":" ++
    Date.padded 2 (seconds / 60 % 60) ++
    (if size % 60000000 = 0 then ""
     else ":" ++ Date.padded 2 (seconds % 60) ++
      (if size % 1000000 = 0 then "" else "." ++ Date.padded 6 (size % 1000000)))

/-- Date, time of day and offset with a mark after the date. -/
def toText (mark : String) (m : Moment) : String := m.reading.toText mark ++ offsetText m.offset

end Moment

end RecordStore
