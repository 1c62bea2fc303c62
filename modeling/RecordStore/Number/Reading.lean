import RecordStore.Number.Double
import RecordStore.Text.Digit

/-!
# Numbers in texts

Reads whole numbers and doubles that people wrote. Blanks around a number are ignored, a sign may
precede it, a single low line may divide two digits, and digits and blanks of every script count.
-/

namespace RecordStore.Number

/-- A text as ASCII: digits of other scripts become the ASCII ones, blanks become spaces. -/
def normalize (text : List Char) : List Char :=
  text.map fun c =>
    if c.toNat < 128 then c
    else if Text.isBlank c then ' '
    else
      match Text.digitValue? c with
      | some n => Char.ofNat (48 + n)
      | none => '?'

/-- A text without spaces, tabs and line breaks at its ends. -/
def trimSpaces (text : List Char) : List Char :=
  Text.trim (fun c => c = ' ' || (9 ≤ c.toNat && c.toNat ≤ 13)) text

/-- The number of a list of ASCII digits. -/
def ofDigits (digits : List Char) : Nat := digits.foldl (fun n c => n * 10 + (c.toNat - 48)) 0

/-- The longest run of digits at the front, low lines between two digits left out, and the rest;
`after` says whether a digit stands before it. -/
def takeDigits (after : Bool) : List Char → List Char × List Char
  | [] => ([], [])
  | c :: rest =>
    if c.isDigit then
      let (digits, tail) := takeDigits true rest
      (c :: digits, tail)
    else if c = '_' && after && rest.head?.any Char.isDigit then takeDigits false rest
    else ([], c :: rest)

/-- The sign at the front, true for a minus, and the rest. -/
def takeSign : List Char → Bool × List Char
  | '-' :: rest => (true, rest)
  | '+' :: rest => (false, rest)
  | rest => (false, rest)

/-- The most digits that a whole number may have where it is read from a text or written as one. -/
def maxDigits : Nat := 4300

/-- Whether a whole number has no more digits than that; its sign is none. -/
def isShort (n : Int) : Bool := (Nat.toDigits 10 n.natAbs).length ≤ maxDigits

/-- The whole number of a text. -/
def readInteger? (text : String) : Option Int :=
  let (negative, rest) := takeSign (trimSpaces (normalize text.toList))
  let (digits, tail) := takeDigits false rest
  if digits ≠ [] ∧ tail = [] ∧ digits.length ≤ maxDigits then
    some (if negative then -(ofDigits digits : Int) else ofDigits digits)
  else none

/-- The exponent at the front, zero if there is none, and the rest. -/
def takeExponent (text : List Char) : Int × List Char :=
  match text with
  | c :: rest =>
    if c = 'e' ∨ c = 'E' then
      let (negative, after) := takeSign rest
      let (digits, tail) := takeDigits false after
      if digits = [] then (0, text)
      else (if negative then -(ofDigits digits : Int) else ofDigits digits, tail)
    else (0, text)
  | [] => (0, [])

/-- The digits and the power of ten of a decimal without sign: digits, a point and more digits, one
of the two runs being non-empty, and an exponent. -/
def readDecimal? (text : List Char) : Option (Nat × Int) :=
  let (whole, afterWhole) := takeDigits false text
  let (places, afterPlaces) :=
    match afterWhole with
    | '.' :: more => takeDigits false more
    | _ => ([], afterWhole)
  if whole = [] ∧ places = [] then none
  else
    let (exponent, tail) := takeExponent afterPlaces
    if tail = [] then some (ofDigits (whole ++ places), exponent - places.length) else none

/-- The double of a number in ASCII without blanks around it: a decimal, or a word for an infinity
or for what is not a number. -/
def readPlainDouble? (text : List Char) : Option Double :=
  let (negative, rest) := takeSign text
  match String.ofList (rest.map Char.toLower) with
  | "inf" | "infinity" => some (.infinite negative)
  | "nan" => some .nan
  | _ => (readDecimal? rest).map fun (digits, exponent) => .ofDecimal negative digits exponent

/-- The double of a text. -/
def readDouble? (text : String) : Option Double :=
  readPlainDouble? (trimSpaces (normalize text.toList))

/-- Whether the standard text of a decimal number is that of one that signals. -/
def isSignaling (text : String) : Bool := "sNaN".toList.isPrefixOf (takeSign text.toList).2

/-- The whole part of the decimal of a text. -/
def readWhole? (text : String) : Option Int := do
  let (negative, rest) := takeSign (trimSpaces (normalize text.toList))
  let (digits, exponent) ← readDecimal? rest
  let size : Int :=
    if exponent < 0 then digits / Nat.pow 10 exponent.natAbs else digits * Nat.pow 10 exponent.toNat
  return if negative then -size else size

end RecordStore.Number
