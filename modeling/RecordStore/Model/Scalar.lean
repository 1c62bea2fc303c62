import RecordStore.Calendar.Stamp
import RecordStore.Datum.Same

/-!
# Scalars of payloads

Reads the scalars of model fields from JSON. Numbers are taken where a number is declared and
nothing is lost, words for booleans, texts that write a number, and stamps for points of time.
-/

namespace RecordStore.Model

/-- Takes a plus away, unless a minus follows it. -/
def dropPlus? (text : List Char) : Option (List Char) :=
  match text with
  | '+' :: '-' :: _ => none
  | '+' :: rest => some rest
  | _ => some text

/-- The rest of a run of zeros and low lines whose last character is `last`: from its first other
digit or minus on, or from the character before its point on. -/
def dropZerosAfter? (last : Char) : List Char → Option (List Char)
  | [] => some [last]
  | c :: rest =>
    if c = '0' ∨ c = '_' then dropZerosAfter? c rest
    else if c.isDigit ∨ c = '-' then some (c :: rest)
    else if c = '.' then some (last :: c :: rest)
    else none

/-- A number without the zeros that it begins with. -/
def dropZeros? (text : List Char) : Option (List Char) :=
  match text with
  | '0' :: rest => dropZerosAfter? '0' rest
  | c :: _ => if c.isDigit ∨ c = '-' then some text else none
  | [] => none

/-- A number without its places, if they are all zeros. -/
def dropPlaces (text : List Char) : List Char :=
  let places := (text.dropWhile (· ≠ '.')).drop 1
  if places ≠ [] ∧ places.all (· = '0') then text.takeWhile (· ≠ '.') else text

/-- Whether two low lines follow each other. -/
def hasDoubleLine : List Char → Bool
  | '_' :: '_' :: _ => true
  | _ :: rest => hasDoubleLine rest
  | [] => false

/-- A number without its low lines, none of which stands at an end or beside another. -/
def dropLines? (text : List Char) : Option (List Char) :=
  if text.head? = some '_' ∨ text.getLast? = some '_' ∨ hasDoubleLine text then none
  else some (text.filter (· ≠ '_'))

/-- The whole number of digits behind an optional minus, if there are not too many of them; only a
lone zero begins with zero. -/
def wholeOfDigits? (text : List Char) : Option Int :=
  let (negative, digits) := match text with
    | '-' :: rest => (true, rest)
    | _ => (false, text)
  if digits = [] ∨ !digits.all Char.isDigit ∨ Number.maxDigits < digits.length then none
  else if digits.head? = some '0' ∧ digits ≠ ['0'] then none
  else
    let size : Int := Number.ofDigits digits
    some (if negative then -size else size)

/-- The whole number of a text. -/
def wholeOfText? (text : String) : Option Int := do
  let trimmed ← dropPlus? (Text.trimWhite text.toList)
  wholeOfDigits? (← dropLines? (dropPlaces (← dropZeros? trimmed)))

/-- The whole number that a double without fraction is, if it is less than `2 ^ 63` in size. -/
def wholeOfDouble? (x : Double) : Option Int := do
  let n ← x.whole?
  if n.natAbs < 0x8000000000000000 then some n else none

/-- The whole number that a field of whole numbers takes from a value. -/
def readInteger? : Json → Option Int
  | .integer n => some n
  | .boolean b => some (if b then 1 else 0)
  | .double x => wholeOfDouble? x
  | .string s => wholeOfText? s
  | _ => none

/-- The double of a number without low lines. -/
def doubleOfDigits? (text : List Char) : Option Double :=
  if text.contains '_' then none else Number.readPlainDouble? text

/-- The double of a text; where low lines divide it, there is no white space around it. -/
def doubleOfText? (text : String) : Option Double :=
  match doubleOfDigits? (Text.trimWhite text.toList) with
  | some x => some x
  | none => (dropLines? text.toList).bind doubleOfDigits?

/-- The double nearest to a whole number; one that is too large is an infinity. -/
def doubleOfWhole (n : Int) : Double := Double.ofFraction n 1

/-- The double that a field of doubles takes from a value. -/
def readDouble? : Json → Option Double
  | .double x => some x
  | .integer n => some (doubleOfWhole n)
  | .boolean b => some (doubleOfWhole (if b then 1 else 0))
  | .string s => doubleOfText? s
  | _ => none

/-- The words for a boolean. -/
def booleanOfWord? (word : String) : Option Bool :=
  if ["1", "on", "t", "true", "y", "yes"].contains word then some true
  else if ["0", "off", "f", "false", "n", "no"].contains word then some false
  else none

/-- The boolean that one and zero stand for. -/
def booleanOfNumber? (n : Int) : Option Bool :=
  if n = 1 then some true else if n = 0 then some false else none

/-- The boolean that a field of booleans takes from a value. -/
def readBoolean? : Json → Option Bool
  | .boolean b => some b
  | .integer n => booleanOfNumber? n
  | .double x => x.whole?.bind booleanOfNumber?
  | .string s => booleanOfWord? (String.ofList (s.toList.map Char.toLower))
  | _ => none

/-- The point of time of a stamp. -/
def ofTimestamp : Calendar.Timestamp → Datum
  | .unplaced t => .clock t
  | .placed m => .moment m

/-- The point of time that a field of timestamps takes from a value. -/
def readStamp? : Json → Option Datum
  | .string s => (Calendar.stampOfText? s.toList).map ofTimestamp
  | .integer n => (Calendar.stampOfCount? n 0).map ofTimestamp
  | .double x => (Calendar.stampOfDouble? x).map ofTimestamp
  | _ => none

/-- The choice that is the same as a JSON value; none is the same as an array or object. -/
def readChoice? (choices : List Datum) (value : Json) : Option Datum :=
  match value with
  | .array _ | .object _ => none
  | _ => choices.find? fun choice => choice.same (Datum.ofJson value)

end RecordStore.Model
