import RecordStore.Calendar.DateTime

/-!
# Dates and times in texts

Reads a point of time from its standard text: a date by month and day or by week and day, with
hyphens or without, any one character, and a time of day, with colons or without, that may end in a
fraction of a second and an offset.
-/

namespace RecordStore.Calendar

/-- A point of time as read: on a clock of known offset, or on an unnamed one. -/
inductive Timestamp
  | unplaced (reading : DateTime)
  | placed (moment : Moment)
  deriving DecidableEq

/-- The number of the first `count` characters, which must be ASCII digits, and the rest. -/
def takeNumber? : Nat → Nat → List Char → Option (Nat × List Char)
  | 0, n, rest => some (n, rest)
  | count + 1, n, c :: rest =>
    if c.isDigit then takeNumber? count (n * 10 + (c.toNat - 48)) rest else none
  | _ + 1, _, [] => none

/-- Drops a hyphen where one is due. -/
def skipHyphen? (due : Bool) (text : List Char) : Option (List Char) :=
  if due then
    match text with
    | '-' :: rest => some rest
    | _ => none
  else some text

/-- The Monday of a year's first week, the week that holds its first Thursday. -/
def firstMonday (january1 : Date) : Int :=
  let weekday : Int := january1.weekday
  let monday := (january1.ordinal : Int) - weekday
  -- From Friday on, the first of January belongs to a week of the year before.
  if 3 < weekday then monday + 7 else monday

/-- The date of a day of a week. A year has a week 53 if it begins on a Thursday, or on a Wednesday
and is a leap year. -/
def ofWeek? (year week day : Nat) : Option Date := do
  let january1 ← Date.make? year 1 1
  let long := january1.weekday = 3 || (january1.weekday = 2 && isLeapYear year)
  if 1 ≤ week ∧ (week ≤ 52 ∨ week = 53 ∧ long) ∧ 1 ≤ day ∧ day ≤ 7 then
    let ordinal := firstMonday january1 + (week - 1 : Nat) * 7 + (day - 1 : Nat)
    -- The first week of the year 1 may begin before the first day of all.
    if ordinal < 1 then none else Date.ofOrdinal? ordinal.toNat
  else none

/-- The date that a text of `length` characters begins with; what follows is not looked at. -/
def readDate? (length : Nat) (text : List Char) : Option Date := do
  let (year, rest) ← takeNumber? 4 0 text
  let divided := rest.head? = some '-'
  let rest := if divided then rest.tail else rest
  match rest with
  | 'W' :: rest =>
    let (week, rest) ← takeNumber? 2 0 rest
    -- A week without a day stands for its Monday.
    if text.length - rest.length < length then
      let (day, _) ← takeNumber? 1 0 (← skipHyphen? divided rest)
      ofWeek? year week day
    else ofWeek? year week 1
  | _ =>
    let (month, rest) ← takeNumber? 2 0 rest
    let (day, _) ← takeNumber? 2 0 (← skipHyphen? divided rest)
    Date.make? year month day

/-- How many characters of a text are its date. A week followed by a hyphen and two digits is taken
to end before the hyphen; a week without hyphens has a day if the digits after it are odd in
number. -/
def dateLength (text : List Char) : Nat :=
  let at? (i : Nat) : Option Char := text[i]?
  if text.length = 7 then 7
  else if at? 4 = some '-' then
    if at? 5 = some 'W' then
      if at? 8 = some '-' then
        if (at? 10).any Char.isDigit then 8 else 10
      else 8
    else 10
  else if at? 4 = some 'W' then
    -- An even number of digits behind the week is a time, and an odd one begins with the day.
    let digits := 7 + ((text.drop 7).takeWhile Char.isDigit).length
    if digits < 9 then digits else if digits % 2 = 0 then 7 else 8
  else 8

/-- What was read of a time of day, and whether text is left over. -/
structure TimeFields where
  hour : Nat := 0
  minute : Nat := 0
  second : Nat := 0
  micro : Nat := 0
  unfinished : Bool := false

/-- The fields when at most one character is left, a divider that divides nothing. -/
def TimeFields.close? (fields : TimeFields) (left : List Char) (more : Bool) : Option TimeFields :=
  match left with
  | [] => some { fields with unfinished := more }
  | mark :: _ => if mark.toNat < 128 then some { fields with unfinished := true } else none

/-- Up to six digits of a fraction as microseconds; further digits are cut off. -/
def readFraction? (fields : TimeFields) (text : List Char) (more : Bool) : Option TimeFields := do
  let count := min text.length 6
  let (n, rest) ← takeNumber? count 0 text
  let rest := rest.dropWhile Char.isDigit
  return { fields with micro := n * Nat.pow 10 (6 - count), unfinished := rest ≠ [] ∨ more }

/-- Hours, then minutes, then seconds, all divided by colons or all undivided, then a fraction
behind a point or comma. `more` says whether text follows the one that is read; a divider at the
very end leaves the reading unfinished. -/
def readTime? (text : List Char) (more : Bool) : Option TimeFields := do
  let (hour, rest) ← takeNumber? 2 0 text
  let fields : TimeFields := { hour }
  match rest with
  | [] | [_] => fields.close? rest more
  | first :: afterFirst =>
    let divided := first = ':'
    if first = '.' ∨ first = ',' then readFraction? fields afterFirst more
    else
      let (minute, rest) ← takeNumber? 2 0 (if divided then afterFirst else rest)
      let fields := { fields with minute }
      match rest with
      | [] | [_] => fields.close? rest more
      | second :: afterSecond =>
        if second = '.' ∨ second = ',' then readFraction? fields afterSecond more
        else if divided ∧ second ≠ ':' then none
        else
          let (second, rest) ← takeNumber? 2 0 (if divided then afterSecond else rest)
          let fields := { fields with second }
          match rest with
          | [] | [_] => fields.close? rest more
          | third :: afterThird =>
            if third = '.' ∨ third = ',' ∨ divided ∧ third = ':' then
              readFraction? fields afterThird more
            else if divided then none
            else readFraction? fields rest more

/-- The offset behind its sign, in microseconds; it is shorter than a day. One shorter than a second
is none. -/
def readOffset? (text : List Char) : Option Int := do
  let fields ← readTime? text false
  let seconds := (fields.hour * 60 + fields.minute) * 60 + fields.second
  let size := if seconds = 0 then 0 else seconds * 1000000 + fields.micro
  if fields.unfinished ∨ microsPerDay ≤ size then none else return (size : Int)

/-- The time of day and offset of a text, on a date. -/
def readClock? (date : Date) (text : List Char) : Option Timestamp := do
  let isSign (c : Char) : Bool := c = '+' || c = '-'
  let clock := text.takeWhile (!isSign ·)
  let zone := text.dropWhile (!isSign ·)
  let fields ← readTime? clock (zone ≠ [])
  let reading ← DateTime.make? date fields.hour fields.minute fields.second fields.micro
  match zone with
  | [] => if fields.unfinished then none else return .unplaced reading
  | sign :: rest =>
    let offset ← readOffset? rest
    return .placed ⟨reading, .fixed (if sign = '-' then -offset else offset)⟩

/-- The point of time of a text. A date alone is midnight. -/
def read? (text : List Char) : Option Timestamp := do
  if text.length < 7 then none
  let length := dateLength text
  let date ← readDate? length text
  match text.drop length with
  | [] => return .unplaced ⟨date, midnight⟩
  | _ :: clock => readClock? date clock

end RecordStore.Calendar
