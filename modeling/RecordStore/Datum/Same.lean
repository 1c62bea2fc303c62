import RecordStore.Datum.Basic
import RecordStore.Number.Exact

/-!
# Equality of data

Two data are the same when no program can tell them apart by comparing: booleans, integers, doubles
and decimals are compared as numbers, byte strings by their bytes, points of time as moments, sets
and dictionaries without regard to order.
-/

namespace RecordStore.Datum

/-- Where a number lies on the line of numbers; booleans are zero and one. -/
def magnitude? : Datum → Option Magnitude
  | .boolean b => some (.ofInt (if b then 1 else 0))
  | .integer n | .long n => some (.ofInt n)
  | .double x => some (.ofDouble x)
  | _ => none

/-- Whether two numbers are equal; what is not a number equals nothing. -/
def sameMagnitude (a b : Magnitude) : Bool := a = b && a ≠ .unordered

/-- The place of a number on the line of numbers; what is not a number has none. -/
def place? : Datum → Option Exact
  | .boolean b => some (.ofInt (if b then 1 else 0))
  | .integer n | .long n => some (.ofInt n)
  | .double x => Exact.ofDouble? x
  | .decimal s => Exact.ofDecimal? s
  | _ => none

/-- Whether a decimal and another number are equal. -/
def sameDecimal (a b : Datum) : Bool :=
  match a.place?, b.place? with
  | some x, some y => x.same y
  | _, _ => false

/-- The bytes that compare by content. -/
def plainBytes? : Datum → Option Bytes
  | .bytes b | .buffer b | .view b => some b
  | _ => none

/-- Equality of data that hold no other data. -/
def sameLeaf (a b : Datum) : Bool :=
  match a, b with
  | .null, .null => true
  | .text x, .text y => x = y
  | .binary x, .binary y => x = y
  | .clock x, .clock y => x = y
  | .moment x, .moment y => x.same y
  | .date x, .date y => x = y
  | .decimal _, _ | _, .decimal _ => sameDecimal a b
  | .uuid x, .uuid y => x = y
  | .value x, .value y => x.same y
  | _, _ =>
    match a.magnitude?, b.magnitude?, a.plainBytes?, b.plainBytes? with
    | some x, some y, _, _ => sameMagnitude x y
    | _, _, some x, some y => x = y
    | _, _, _, _ => false

mutual

/-- Whether two data are the same. -/
def same : Datum → Datum → Bool
  | .list xs, .list ys => sameItems xs ys
  | .tuple xs, .tuple ys => sameItems xs ys
  | .set xs, .set ys | .set xs, .frozenSet ys | .frozenSet xs, .set ys
  | .frozenSet xs, .frozenSet ys => xs.length = ys.length && allIn xs ys
  | .dict xs, .dict ys => xs.length = ys.length && allEntriesIn xs ys
  | .tagged x, .tagged y => same x y
  | .model shape xs _, .model other ys _ => shape.name = other.name && sameFields xs ys
  | a, b => sameLeaf a b

/-- Whether two lists have the same items in the same order. -/
def sameItems : List Datum → List Datum → Bool
  | [], [] => true
  | x :: xs, y :: ys => same x y && sameItems xs ys
  | _, _ => false

/-- Whether each datum of a list is the same as one of another list. -/
def allIn : List Datum → List Datum → Bool
  | [], _ => true
  | x :: xs, ys => ys.any (fun y => same x y) && allIn xs ys

/-- Whether each entry is the same as one of another dictionary, in key and value. -/
def allEntriesIn : List (Datum × Datum) → List (Datum × Datum) → Bool
  | [], _ => true
  | (k, x) :: xs, ys => ys.any (fun (other, y) => same k other && same x y) && allEntriesIn xs ys

/-- Whether two instances have the same fields in the same order. -/
def sameFields : List (String × Datum) → List (String × Datum) → Bool
  | [], [] => true
  | (name, x) :: xs, (other, y) :: ys => name = other && same x y && sameFields xs ys
  | _, _ => false

end

/-- The items without later ones that are the same as an earlier one. -/
def distinct (items : List Datum) : List Datum :=
  items.foldl (fun done item => if done.any (·.same item) then done else done ++ [item]) []

/-- Writes an entry; a key that is the same as a present one keeps its place and its form. -/
def putEntry (key item : Datum) : List (Datum × Datum) → List (Datum × Datum)
  | [] => [(key, item)]
  | (k, old) :: rest => if k.same key then (k, item) :: rest else (k, old) :: putEntry key item rest

/-- The dictionary that entries written one after the other leave. -/
def ofEntries (entries : List (Datum × Datum)) : Datum :=
  .dict (entries.foldl (fun done entry => putEntry entry.1 entry.2 done) [])

end RecordStore.Datum
