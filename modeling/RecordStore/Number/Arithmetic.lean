import RecordStore.Number.Double

/-!
# Sums, products and quotients of doubles

The arithmetic of finite doubles: the exact result, rounded to the nearest double, a half going to
the even neighbour. What is not finite has no result here.
-/

namespace RecordStore.Double

/-- The double nearest to `num / den`; beyond the largest double it is an infinity. -/
def ofFraction (num : Int) (den : Nat) : Double :=
  (ofRatio? (num < 0) num.natAbs den).getD (.infinite (num < 0))

/-- The sum of two doubles. -/
def add? (x y : Double) : Option Double := do
  return ofFraction ((← x.units?) + (← y.units?)) unitsPerOne

/-- The difference of two doubles. -/
def sub? (x y : Double) : Option Double := do
  return ofFraction ((← x.units?) - (← y.units?)) unitsPerOne

/-- The product of two doubles. -/
def mul? (x y : Double) : Option Double := do
  return ofFraction ((← x.units?) * (← y.units?)) (unitsPerOne * unitsPerOne)

/-- The quotient of two doubles; there is none by zero. -/
def div? (x y : Double) : Option Double := do
  let divisor ← y.units?
  if divisor = 0 then none
  else return ofFraction ((← x.units?) * divisor.sign) divisor.natAbs

/-- The double of opposite sign. -/
def negate : Double → Double
  | .nan => .nan
  | .infinite negative => .infinite (!negative)
  | .finite negative exponent fraction => .finite (!negative) exponent fraction

/-- The largest whole number that is not above a finite double. -/
def floor? (x : Double) : Option Int := x.units?.map fun count => count / (unitsPerOne : Int)

/-- The whole number nearest to a finite double; a half goes away from zero. -/
def round? (x : Double) : Option Int :=
  x.units?.map fun count =>
    count.sign * ((2 * count.natAbs + unitsPerOne) / (2 * unitsPerOne) : Nat)

/-- The whole number that a finite double without fraction is. -/
def whole? (x : Double) : Option Int := do
  let count ← x.units?
  if count % (unitsPerOne : Int) = 0 then some (count / (unitsPerOne : Int)) else none

end RecordStore.Double
