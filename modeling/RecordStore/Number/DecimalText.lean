import RecordStore.Number.Reading

/-!
# Texts of decimal numbers

A decimal number keeps all the digits that it was written with, also zeros at its end. Each has one
standard text: positional as long as no zeros must be added behind its digits and few between the
point and them, and with an exponent otherwise.
-/

namespace RecordStore.Number

/-- A decimal number: digits without zeros before them, and the power of ten of the last one. -/
structure DecimalNumber where
  negative : Bool
  digits : List Char
  exponent : Int

namespace DecimalNumber

/-- The exponent behind its letter, with a sign in any case. -/
def exponentText (n : Int) : List Char :=
  if n = 0 then [] else 'E' :: (if n < 0 then '-' else '+') :: (toString n.natAbs).toList

/-- The standard text. -/
def toText (d : DecimalNumber) : String :=
  let count : Int := d.digits.length
  let left := d.exponent + count
  let point := if d.exponent ≤ 0 ∧ -6 < left then left else 1
  let digits :=
    if point ≤ 0 then '0' :: '.' :: (List.replicate point.natAbs '0' ++ d.digits)
    else if count ≤ point then d.digits ++ List.replicate (point - count).toNat '0'
    else d.digits.take point.toNat ++ '.' :: d.digits.drop point.toNat
  String.ofList ((if d.negative then ['-'] else []) ++ digits ++ exponentText (left - point))

/-- The number of some digits, of which so many stand behind the point. -/
def ofDigits (negative : Bool) (digits : List Char) (exponent : Int) : DecimalNumber :=
  let kept := digits.dropWhile (· = '0')
  ⟨negative, if kept = [] then ['0'] else kept, exponent⟩

/-- The exponent behind its letter, if the text is nothing else. -/
def readExponent? (text : List Char) : Option Int :=
  match text with
  | [] => some 0
  | letter :: rest =>
    let (negative, digits) := takeSign rest
    if (letter = 'e' ∨ letter = 'E') ∧ digits ≠ [] ∧ digits.all Char.isDigit then
      some (if negative then -(Number.ofDigits digits : Int) else Number.ofDigits digits)
    else none

/-- The decimal number of a text without sign. -/
def read? (negative : Bool) (text : List Char) : Option DecimalNumber := do
  let whole := text.takeWhile Char.isDigit
  let rest := text.dropWhile Char.isDigit
  let (places, rest) := match rest with
    | '.' :: more => (more.takeWhile Char.isDigit, more.dropWhile Char.isDigit)
    | _ => ([], rest)
  if whole = [] ∧ places = [] then none
  else return ofDigits negative (whole ++ places) ((← readExponent? rest) - places.length)

end DecimalNumber

/-- The standard text of what is not a number, with the digits that it carries. -/
def notANumber? (word : String) (text : List Char) : Option String :=
  let name := String.ofList ((text.take word.length).map Char.toLower)
  let carried := text.drop word.length
  if name = String.ofList (word.toList.map Char.toLower) ∧ carried.all Char.isDigit then
    some (word ++ String.ofList (carried.dropWhile (· = '0')))
  else none

/-- The standard text of a decimal number, of an infinity, or of what is not a number. Blanks at the
ends and low lines are passed over. -/
def decimalText? (text : String) : Option String := do
  let chars := (trimSpaces (normalize text.toList)).filter (· ≠ '_')
  let (negative, size) := takeSign chars
  let sign := if negative then "-" else ""
  match String.ofList (size.map Char.toLower) with
  | "inf" | "infinity" => return sign ++ "Infinity"
  | _ =>
    match notANumber? "NaN" size, notANumber? "sNaN" size with
    | some shown, _ | none, some shown => return sign ++ shown
    | none, none => return (← DecimalNumber.read? negative size).toText

end RecordStore.Number
