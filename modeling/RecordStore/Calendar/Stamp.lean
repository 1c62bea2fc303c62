import RecordStore.Calendar.Reading
import RecordStore.Number.Arithmetic
import RecordStore.Number.Reading

/-!
# Time stamps

The stamps of payloads. A stamp is a text in the one form of date, time of day and offset that is
common in data exchange, a date alone, or a count of seconds since 1970 as a number or in digits. A
count that is too large for seconds is one of milliseconds.
-/

namespace RecordStore.Calendar

/-- What stands behind one of some marks at the front. -/
def skipMark? (marks : List Char) (text : List Char) : Option (List Char) :=
  match text with
  | c :: rest => if marks.contains c then some rest else none
  | [] => none

/-- A date in ten characters, and the rest. -/
def takeDate? (text : List Char) : Option (Date × List Char) := do
  let (year, rest) ← takeNumber? 4 0 text
  let (month, rest) ← takeNumber? 2 0 (← skipMark? ['-'] rest)
  let (day, rest) ← takeNumber? 2 0 (← skipMark? ['-'] rest)
  return (← Date.make? year month day, rest)

/-- The microseconds of the digits of a fraction; digits behind the sixth are cut off. -/
def microsOfDigits (digits : List Char) : Nat :=
  let kept := digits.take 6
  Number.ofDigits kept * Nat.pow 10 (6 - kept.length)

/-- The seconds behind the minutes, with their fraction in microseconds, and the rest; both are zero
where none are written. -/
def takeSeconds? (text : List Char) : Option ((Nat × Nat) × List Char) :=
  match text with
  | ':' :: rest => do
    let (second, rest) ← takeNumber? 2 0 rest
    match skipMark? ['.', ','] rest with
    | none => return ((second, 0), rest)
    | some rest =>
      let digits := rest.takeWhile Char.isDigit
      if digits = [] then none
      else return ((second, microsOfDigits digits), rest.dropWhile Char.isDigit)
  | _ => some ((0, 0), text)

/-- A time of day on a date, and the rest: hours, minutes, and seconds that may be left out. -/
def takeClock? (date : Date) (text : List Char) : Option (DateTime × List Char) := do
  let (hour, rest) ← takeNumber? 2 0 text
  let (minute, rest) ← takeNumber? 2 0 (← skipMark? [':'] rest)
  let ((second, micro), rest) ← takeSeconds? rest
  return (← DateTime.make? date hour minute second micro, rest)

/-- The offset of hours and minutes behind its sign, in microseconds; it is shorter than a day. -/
def offsetOfText? (text : List Char) : Option Int := do
  let (hour, rest) ← takeNumber? 2 0 text
  let (minute, rest) ← takeNumber? 2 0 ((skipMark? [':'] rest).getD rest)
  if rest = [] ∧ hour < 24 ∧ minute < 60 then return ((hour * 60 + minute : Nat) : Int) * 60000000
  else none

/-- A reading with the offset that the rest of its text says; the letter for universal time is no
offset, and the minus may be the one of print. -/
def placeReading? (reading : DateTime) (zone : List Char) : Option Timestamp :=
  match zone with
  | [] => some (.unplaced reading)
  | ['Z'] | ['z'] => some (.placed ⟨reading, .universal⟩)
  | '+' :: rest => (offsetOfText? rest).map fun offset => .placed ⟨reading, .fixed offset⟩
  | sign :: rest =>
    if sign = '-' ∨ sign.toNat = 0x2212 then
      (offsetOfText? rest).map fun offset => .placed ⟨reading, .fixed (-offset)⟩
    else none

/-- The stamp of a date, a mark, a time of day and perhaps an offset. -/
def stampOfClock? (text : List Char) : Option Timestamp := do
  let (date, rest) ← takeDate? text
  let (reading, zone) ← takeClock? date (← skipMark? ['T', 't', ' ', '_'] rest)
  placeReading? reading zone

/-- The stamp of a date alone, which is its midnight. -/
def stampOfDate? (text : List Char) : Option Timestamp := do
  let (date, rest) ← takeDate? text
  if rest = [] then return .unplaced ⟨date, midnight⟩ else none

/-- The largest count that is one of seconds. -/
def mostSeconds : Nat := 20000000000

/-- The count of seconds at the beginning of the year 1600; no count is of an earlier time. -/
def leastSeconds : Int := -11676096000

/-- The point of universal time after so many seconds, or milliseconds, since the beginning of 1970,
and so many microseconds. -/
def stampOfCount? (count : Int) (micros : Int) : Option Timestamp :=
  let unit := if count.natAbs ≤ mostSeconds then 1000000 else 1000
  let total := count * unit + micros
  if total < leastSeconds * 1000000 then none else (Moment.ofMicros? total).map .placed

/-- The seconds of a count, which are milliseconds if they are too many. -/
def secondsOfDouble? (x : Double) : Option Double := do
  let thousand ← Double.ofInt? 1000
  match (Magnitude.ofInt mostSeconds).compare (.ofDouble x),
    (Magnitude.ofDouble x).compare (.ofInt (-mostSeconds)) with
  | .lt, _ | _, .lt => x.div? thousand
  | _, _ => some x

/-- The point of universal time after a count of seconds with a fraction, which is rounded to
microseconds. -/
def stampOfDouble? (x : Double) : Option Timestamp := do
  let seconds ← secondsOfDouble? x
  let whole ← seconds.floor?
  let fraction ← seconds.sub? (← Double.ofInt? whole)
  let micros ← (← fraction.mul? (← Double.ofInt? 1000000)).round?
  -- The whole seconds are once more taken for milliseconds if they are too many.
  stampOfCount? whole micros

/-- Adds the digits of a fraction to a number one by one; the next digit is divided by `divisor`.
A divisor beyond all doubles leaves nothing to add. -/
def addPlaces? (x divisor : Double) : List Char → Option Double
  | [] => some x
  | c :: rest => do
    if !c.isDigit then none
    else
      match divisor with
      | .infinite _ => addPlaces? x divisor rest
      | _ =>
        let digit ← Double.ofInt? (c.toNat - 48)
        let x ← x.add? (← digit.div? divisor)
        addPlaces? x (← divisor.mul? (← Double.ofInt? 10)) rest

/-- Whether a whole number fits a signed word of 64 bits. -/
def isWord (n : Int) : Bool := -0x8000000000000000 ≤ n && n < 0x8000000000000000

/-- The stamp of a count in digits, with places behind a point. -/
def stampOfDigits? (text : List Char) : Option Timestamp := do
  let (negative, rest) := Number.takeSign text
  let digits := rest.takeWhile Char.isDigit
  let size := Number.ofDigits digits
  if digits = [] ∨ !isWord size then none
  else
    match rest.dropWhile Char.isDigit with
    | [] => stampOfCount? (if negative then -size else size) 0
    | '.' :: places =>
      let x ← addPlaces? (← Double.ofInt? size) (← Double.ofInt? 10) places
      stampOfDouble? (if negative then x.negate else x)
    | _ => none

/-- The stamp of a text. -/
def stampOfText? (text : List Char) : Option Timestamp :=
  match stampOfClock? text with
  | some stamp => some stamp
  | none =>
    match stampOfDigits? text with
    | some stamp => some stamp
    | none => stampOfDate? text

end RecordStore.Calendar
