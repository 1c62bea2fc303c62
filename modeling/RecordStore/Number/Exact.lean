import RecordStore.Number.Reading

/-!
# Exact comparison of numbers

Whole numbers, doubles and decimals on one line of numbers. What is not a number has no place on it.
-/

namespace RecordStore

/-- A place on the line of numbers, its two ends included. -/
inductive Exact
  | below
  | fraction (num : Int) (den : Nat)
  | above

namespace Exact

/-- The place of a whole number. -/
def ofInt (n : Int) : Exact := .fraction n 1

/-- The place of a double; what is not a number has none. -/
def ofDouble? : Double → Option Exact
  | .nan => none
  | .infinite negative => some (if negative then .below else .above)
  | x => x.units?.map fun count => .fraction count Double.unitsPerOne

/-- The place of a decimal by its text; what is not a number has none. -/
def ofDecimal? (text : String) : Option Exact :=
  let (negative, size) := Number.takeSign text.toList
  if size = "Infinity".toList then some (if negative then .below else .above)
  else
    (Number.readDecimal? size).map fun (digits, exponent) =>
      let sign : Int := if negative then -1 else 1
      if exponent < 0 then .fraction (sign * digits) (Nat.pow 10 exponent.natAbs)
      else .fraction (sign * digits * Nat.pow 10 exponent.toNat) 1

/-- Whether a place lies before another. -/
def less : Exact → Exact → Bool
  | .below, .below | .above, _ => false
  | .below, _ => true
  | .fraction _ _, .below => false
  | .fraction _ _, .above => true
  | .fraction a b, .fraction c d => a * d < c * b

/-- Whether two places are one, whatever the fractions that write them. -/
def same : Exact → Exact → Bool
  | .below, .below | .above, .above => true
  | .fraction a b, .fraction c d => a * d = c * b
  | _, _ => false

end Exact

end RecordStore
