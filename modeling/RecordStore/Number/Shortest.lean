import RecordStore.Number.Double

/-!
# Shortest decimals

The fewest decimal digits that read back as a given double, and their layout as text. The reals
that round to a double form an interval, ends included when its significand is even. For one, two,
and up to seventeen digits the two decimals next to the double are tried; the first count of digits
with a hit wins, and of two hits the nearer one.

How the digits are laid out is a `Notation` record, so each output format states its own.
-/

namespace RecordStore

/-- A positive decimal, `digits * 10 ^ exponent`. -/
structure Decimal where
  digits : Nat
  exponent : Int
  deriving DecidableEq, Inhabited

namespace Decimal

/-- Whether `num / den` is at most the decimal. -/
def atLeast (d : Decimal) (num den : Nat) : Bool :=
  if d.exponent < 0 then num * Nat.pow 10 d.exponent.natAbs ≤ d.digits * den
  else num ≤ d.digits * Nat.pow 10 d.exponent.toNat * den

/-- Whether the decimal is at most `num / den`. -/
def atMost (d : Decimal) (num den : Nat) : Bool :=
  if d.exponent < 0 then d.digits * den ≤ num * Nat.pow 10 d.exponent.natAbs
  else d.digits * Nat.pow 10 d.exponent.toNat * den ≤ num

/-- The digits without trailing zeros. -/
def strip (fuel : Nat) (d : Decimal) : Decimal :=
  match fuel with
  | 0 => d
  | fuel + 1 =>
    if d.digits ≠ 0 ∧ d.digits % 10 = 0 then strip fuel ⟨d.digits / 10, d.exponent + 1⟩ else d

end Decimal

namespace Double

/-- The interval of a finite double, in quarters of its last place: lower end, the double itself,
upper end. Below a power of two the gap is half as wide. -/
def quarters (exponent : Fin 2047) (fraction : Fin 4503599627370496) : Nat × Nat × Nat :=
  let size := significand exponent fraction
  -- The next smaller double is half as far away, except at the very bottom of the range.
  let narrow := fraction.val = 0 ∧ 1 < exponent.val
  (4 * size - (if narrow then 1 else 2), 4 * size, 4 * size + 2)

/-- How many times `num / den` can be multiplied by ten and stay below one. -/
def leadingZeros (den : Nat) : Nat → Nat → Nat
  | 0, _ => 0
  | fuel + 1, num => if num * 10 < den then leadingZeros den fuel (num * 10) + 1 else 0

/-- The least `k` with `num / den < 10 ^ k`. -/
def decimalPoint (num den : Nat) : Int :=
  -- The smallest double has less than 330 zeros behind its point.
  let whole := num / den
  if whole = 0 then -(leadingZeros den 330 num : Int) else (Nat.toDigits 10 whole).length

/-- The decimal nearest to `num / den` among its two neighbours with last place `10 ^ place`, out of
those that `reads` accepts. -/
def nearestNeighbour (reads : Decimal → Bool) (num den : Nat) (place : Int) : Option Decimal :=
  let floor :=
    if place < 0 then num * Nat.pow 10 place.natAbs / den else num / (den * Nat.pow 10 place.toNat)
  let low : Decimal := ⟨floor, place⟩
  let high : Decimal := ⟨floor + 1, place⟩
  let middle : Decimal := ⟨10 * floor + 5, place - 1⟩
  match reads low, reads high with
  | false, false => none
  | true, false => some low
  | false, true => some high
  -- Both neighbours read back: the nearer one is taken, and of two equally near ones the even one.
  | true, true =>
    if middle.atLeast num den ∧ middle.atMost num den then
      some (if floor % 2 = 0 then low else high)
    else if middle.atLeast num den then some low
    else some high

/-- The first hit with `count`, `count + 1`, ... digits. -/
def searchDigits (reads : Decimal → Bool) (num den : Nat) (point : Int) : Nat → Nat → Option Decimal
  | 0, _ => none
  | fuel + 1, count =>
    match nearestNeighbour reads num den (point - count) with
    | some d => some d
    | none => searchDigits reads num den point fuel (count + 1)

/-- The fewest digits that read back as the finite double of this exponent and fraction; zero has
the single digit `0`. -/
def shortest (exponent : Fin 2047) (fraction : Fin 4503599627370496) : Decimal :=
  let (low, centre, high) := quarters exponent fraction
  let factor := Nat.pow 2 (scale exponent)
  let den := 4 * unitsPerOne
  let num := centre * factor
  -- The ends of the interval are read as this double exactly if its significand is even.
  let even := significand exponent fraction % 2 = 0
  let reads (d : Decimal) : Bool :=
    d.atLeast (low * factor) den && d.atMost (high * factor) den &&
      (even || !(d.atMost (low * factor) den) && !(d.atLeast (high * factor) den))
  if centre = 0 then ⟨0, 0⟩
  else
    match searchDigits reads num den (decimalPoint num den) 17 1 with
    | some d => d.strip 20
    -- Seventeen digits are always enough; the exact decimal makes the search total.
    | none => ⟨num * Nat.pow 10 1100 / den, -1100⟩

end Double

/-- How a double is written: where positional notation ends, and how an exponent looks. -/
structure DoubleNotation where
  /-- Positional when the decimal point lies right of this position of the first digit. -/
  positionalAbove : Int
  /-- Positional when the decimal point lies at most this far right. -/
  positionalUpTo : Int
  /-- Whether a positive exponent has a plus sign. -/
  plus : Bool
  /-- The least number of digits of an exponent. -/
  exponentWidth : Nat
  /-- The text of what is not a number. -/
  notANumber : String
  infinity : String
  negativeInfinity : String

namespace DoubleNotation

/-- A text with so many zeros before it that it has a width. -/
def pad (width : Nat) (text : String) : String :=
  String.ofList (List.replicate (width - text.length) '0') ++ text

/-- The text of a positive decimal. A positional number always has a point and a digit after it. -/
def layout (style : DoubleNotation) (d : Decimal) : String :=
  let digits := (toString d.digits).toList
  let count := digits.length
  let point : Int := if d.digits = 0 then 1 else count + d.exponent
  if style.positionalAbove < point ∧ point ≤ style.positionalUpTo then
    if point ≤ 0 then "0." ++ String.ofList (List.replicate point.natAbs '0' ++ digits)
    else if count ≤ point.toNat then
      String.ofList (digits ++ List.replicate (point.toNat - count) '0') ++ ".0"
    else
      String.ofList (digits.take point.toNat) ++ "." ++ String.ofList (digits.drop point.toNat)
  else
    let shown := point - 1
    let sign := if shown < 0 then "-" else if style.plus then "+" else ""
    let lead := match digits with
      | first :: second :: rest => String.ofList (first :: '.' :: second :: rest)
      | _ => String.ofList digits
    lead ++ "e" ++ sign ++ pad style.exponentWidth (toString shown.natAbs)

/-- The text of a double: its shortest decimal, or a word. -/
def write (style : DoubleNotation) : Double → String
  | .nan => style.notANumber
  | .infinite negative => if negative then style.negativeInfinity else style.infinity
  | .finite negative exponent fraction =>
    (if negative then "-" else "") ++ style.layout (Double.shortest exponent fraction)

end DoubleNotation

end RecordStore
