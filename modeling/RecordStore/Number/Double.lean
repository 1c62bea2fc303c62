/-!
# Double precision numbers

A double is not a number, an infinity, or a sign with an exponent field and a fraction field.
Every finite double is a whole multiple of the smallest positive one, `2 ^ -1074`, and
`Double.units` counts how many of them it holds. All arithmetic below is exact arithmetic on
those counts: rounding a quotient, reading a decimal, cutting off a fraction.
-/

namespace RecordStore

/-- A double precision number. There is one value that is not a number; the two zeros differ. -/
inductive Double
  | nan
  | infinite (negative : Bool)
  | finite (negative : Bool) (exponent : Fin 2047) (fraction : Fin 4503599627370496)
  deriving DecidableEq

namespace Double

/-- The number of fraction values of one exponent, `2 ^ 52`. -/
def fractionCount : Nat := 4503599627370496

/-- The number of smallest positive doubles in one, `2 ^ 1074`. -/
def unitsPerOne : Nat := Nat.pow 2 1074

/-- The whole number that is scaled by a power of two: exponent field zero has no leading bit. -/
def significand (exponent : Fin 2047) (fraction : Fin 4503599627370496) : Nat :=
  if exponent.val = 0 then fraction.val else fractionCount + fraction.val

/-- The power of two, counted from `2 ^ -1074`, that scales the significand. -/
def scale (exponent : Fin 2047) : Nat := exponent.val - 1

/-- A finite double as a count of `2 ^ -1074`. -/
def units? : Double → Option Int
  | .finite negative exponent fraction =>
    let size := significand exponent fraction * Nat.pow 2 (scale exponent)
    some (if negative then -(size : Int) else size)
  | _ => none

/-- The zero without a sign. -/
def zero : Double := .finite false 0 0

/-- The quotient rounded to a whole number; a half goes to the even neighbour. -/
def roundQuotient (num den : Nat) : Nat :=
  let quotient := num / den
  let twice := 2 * (num % den)
  if twice < den then quotient
  else if den < twice then quotient + 1
  else quotient + quotient % 2

/-- The double of a sign, a significand below `2 ^ 53` and a scale; `none` when it is beyond the
largest double. -/
def assemble (negative : Bool) (size power : Nat) : Option Double :=
  -- Below the first power of two there is no leading bit, and the exponent field is zero.
  if size < fractionCount then
    some (.finite negative 0 (Fin.ofNat _ size))
  else if h : power + 1 < 2047 then
    some (.finite negative ⟨power + 1, h⟩ (Fin.ofNat _ (size - fractionCount)))
  else none

/-- The double nearest to `num / den`, a half going to the even neighbour; `none` when it is beyond
the largest double. -/
def ofRatio? (negative : Bool) (num den : Nat) : Option Double :=
  let total := num * unitsPerOne
  let power := Nat.log2 (total / den) - 52
  let size := roundQuotient total (den * Nat.pow 2 power)
  -- Rounding up may carry into the next power of two.
  if size = 2 * fractionCount then assemble negative fractionCount (power + 1)
  else assemble negative size power

/-- The double nearest to a whole number, if there is one. -/
def ofInt? (n : Int) : Option Double := ofRatio? (n < 0) n.natAbs 1

/-- The double nearest to `digits * 10 ^ exponent`; too large a decimal is an infinity. -/
def ofDecimal (negative : Bool) (digits : Nat) (exponent : Int) : Double :=
  if digits = 0 then .finite negative 0 0
  -- So far out a decimal is an infinity or zero, and its power of ten need not be computed.
  else if 400 < exponent then .infinite negative
  else if exponent < -(400 + Nat.log2 digits : Int) then .finite negative 0 0
  else
    let rounded :=
      if exponent < 0 then ofRatio? negative digits (Nat.pow 10 exponent.natAbs)
      else ofRatio? negative (digits * Nat.pow 10 exponent.toNat) 1
    rounded.getD (.infinite negative)

/-- The whole part of a finite double. -/
def truncate? (x : Double) : Option Int := x.units?.map (·.tdiv unitsPerOne)

/-- Whether a double is a number, and no infinity. -/
def isFinite : Double → Bool
  | .finite _ _ _ => true
  | _ => false

/-- Whether a double is zero, of either sign. -/
def isZero : Double → Bool
  | .finite _ exponent fraction => exponent.val = 0 && fraction.val = 0
  | _ => false

/-- The 64 bits of the interchange format: sign, 11 bits of exponent, 52 bits of fraction. -/
def toBits : Double → Nat
  | .nan => 0x7ff8000000000000
  | .infinite negative => (if negative then 0x8000000000000000 else 0) + 2047 * fractionCount
  | .finite negative exponent fraction =>
    (if negative then 0x8000000000000000 else 0) + exponent.val * fractionCount + fraction.val

/-- The double of 64 bits of the interchange format. -/
def ofBits (bits : Nat) : Double :=
  let negative := bits / 0x8000000000000000 % 2 = 1
  let exponent := bits / fractionCount % 2048
  let fraction := bits % fractionCount
  if h : exponent < 2047 then .finite negative ⟨exponent, h⟩ (Fin.ofNat _ fraction)
  else if fraction = 0 then .infinite negative
  else .nan

end Double

/-- Where a number lies on the line of all numbers: what is not a number comes first, then the
negative infinity, the counts of `2 ^ -1074`, and the positive infinity. -/
inductive Magnitude
  | unordered
  | below
  | units (count : Int)
  | above
  deriving DecidableEq

namespace Magnitude

/-- The place of a whole number. -/
def ofInt (n : Int) : Magnitude := .units (n * (Double.unitsPerOne : Int))

/-- The place of a double. -/
def ofDouble : Double → Magnitude
  | .nan => .unordered
  | .infinite negative => if negative then .below else .above
  | .finite negative exponent fraction =>
    let size : Int := Double.significand exponent fraction * Nat.pow 2 (Double.scale exponent)
    .units (if negative then -size else size)

/-- The part of the line that a place lies in. -/
def rank : Magnitude → Nat
  | .unordered => 0
  | .below => 1
  | .units _ => 2
  | .above => 3

/-- The order of places: by the parts of the line, and by the counts between the infinities. -/
def compare : Magnitude → Magnitude → Ordering
  | .units a, .units b => Ord.compare a b
  | a, b => Ord.compare a.rank b.rank

end Magnitude

end RecordStore
