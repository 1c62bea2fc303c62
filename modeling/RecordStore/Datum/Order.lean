import RecordStore.Datum.Same
import RecordStore.Error

/-!
# The order of data

Which of two data is less, as far as they can be compared: numbers by size, texts by characters,
bytes by bytes, points of time by instant, tuples and lists by their first parts that differ, sets
by inclusion. Data of different sorts have no order, and some of one sort have none either.
-/

namespace RecordStore

/-- The error of a decimal that is compared with what is not a number. -/
def invalidOperation : Error := .foreign "InvalidOperation" "[<class 'decimal.InvalidOperation'>]"

namespace Datum

/-- Whether a datum is a decimal number. -/
def isDecimal : Datum → Bool
  | .decimal _ => true
  | _ => false

/-- Whether a datum is compared by size; booleans are, as one and zero. -/
def isNumber : Datum → Bool
  | .boolean _ | .integer _ | .long _ | .double _ | .decimal _ => true
  | _ => false

/-- Whether a number is less than another. What is not a number is neither less nor greater than a
double or whole number, and cannot be compared with a decimal. -/
def lessNumber (a b : Datum) : Except Error Bool :=
  match a.place?, b.place? with
  | some x, some y => .ok (x.less y)
  | _, _ => if a.isDecimal || b.isDecimal then .error invalidOperation else .ok false

/-- Whether a list compares below another by its first elements that differ, or is its beginning. -/
def lessList {α : Type} [Ord α] (a b : List α) : Bool := List.compareLex compare a b = .lt

/-- The members of a set. -/
def members? : Datum → Option (List Datum)
  | .set items | .frozenSet items => some items
  | _ => none

/-- Whether two byte strings have an order: neither is a view, or one can be changed. -/
def areOrderedBytes (a b : Datum) : Bool :=
  match a, b with
  | .buffer _, _ | _, .buffer _ => true
  | .view _, _ | _, .view _ => false
  | _, _ => true

/-- The error of two data without order. -/
def notOrdered (a b : Datum) : Error := .badType (.notOrdered a.fullTypeName b.fullTypeName)

/-- The order of data that hold no other data. -/
def lessLeaf (a b : Datum) : Except Error Bool :=
  match a, b with
  | .text x, .text y => .ok (lessList x.toList y.toList)
  | .clock x, .clock y => .ok (x.micros < y.micros)
  | .moment x, .moment y => .ok (x.compare y = .lt)
  | .clock _, .moment _ | .moment _, .clock _ => .error (.badType .mixedClocks)
  | .date x, .date y => .ok (x.ordinal < y.ordinal)
  | .date _, .clock _ | .date _, .moment _ | .clock _, .date _ | .moment _, .date _ =>
    .error (.badType .clockWithDate)
  | .uuid x, .uuid y => .ok (Text.Hex.number x.toList < Text.Hex.number y.toList)
  | _, _ =>
    match a.bytes?, b.bytes?, a.members?, b.members? with
    | some x, some y, _, _ =>
      if areOrderedBytes a b then .ok (lessList x y) else .error (notOrdered a b)
    | _, _, some x, some y => .ok (x.length < y.length && allIn x y)
    | _, _, _, _ => if a.isNumber && b.isNumber then lessNumber a b else .error (notOrdered a b)

mutual

/-- Whether a datum is less than another. -/
def less (a b : Datum) : Except Error Bool :=
  match a, b with
  | .tuple xs, .tuple ys | .list xs, .list ys => lessItems xs ys
  | _, _ => lessLeaf a b

/-- Whether items are less than others: the first ones that differ decide, and then the number. -/
def lessItems (xs ys : List Datum) : Except Error Bool :=
  match xs, ys with
  | x :: xs, y :: ys => if same x y then lessItems xs ys else less x y
  | xs, ys => .ok (xs.isEmpty && !ys.isEmpty)

end

end Datum

end RecordStore
