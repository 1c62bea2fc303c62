/-!
# Ranges of characters

Membership in a class of characters that is written down as ranges in ascending order.
-/

namespace RecordStore.Text

/-- Whether a range between the positions `low` and `high` has the number `n`, by halving. -/
def inRangesBetween (ranges : Array (Nat × Nat)) (n : Nat) : Nat → Nat → Nat → Bool
  | 0, _, _ => false
  | fuel + 1, low, high =>
    if high ≤ low then false
    else
      let middle := (low + high) / 2
      match ranges[middle]? with
      | none => false
      | some (first, last) =>
        if n < first then inRangesBetween ranges n fuel low middle
        else if last < n then inRangesBetween ranges n fuel (middle + 1) high
        else true

/-- Whether one of the ranges, which ascend, has the character. -/
def inRanges (ranges : Array (Nat × Nat)) (c : Char) : Bool :=
  inRangesBetween ranges c.toNat ranges.size 0 ranges.size

end RecordStore.Text
