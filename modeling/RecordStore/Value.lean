import RecordStore.Calendar.DateTime
import RecordStore.Number.Double
import RecordStore.Text.Utf8

/-!
# Backend values

The closed set of values that a backend stores, indexes and compares, and their order. Kinds are
ordered null, boolean, number, timestamp, string, blob; integers and doubles are one kind of number
and compare exactly, with what is not a number below all others.
-/

namespace RecordStore

/-- The kinds of backend values. -/
inductive ValueKind
  | null
  | boolean
  | integer
  | double
  | timestamp
  | string
  | blob
  deriving DecidableEq

namespace ValueKind

/-- The name of a kind. -/
def name : ValueKind → String
  | .null => "null"
  | .boolean => "boolean"
  | .integer => "integer"
  | .double => "double"
  | .timestamp => "timestamp"
  | .string => "string"
  | .blob => "blob"

/-- All kinds, in their order. -/
def all : List ValueKind := [.null, .boolean, .integer, .double, .timestamp, .string, .blob]

/-- The kind of a name. -/
def ofName? (text : String) : Option ValueKind := all.find? fun kind => kind.name = text

end ValueKind

/-- A backend value. An integer may be marked as a 64-bit `long` and a blob as `binary`, the forms
that a document database keeps apart; they are of the same kind as the plain ones. -/
inductive Value
  | null
  | boolean (b : Bool)
  | integer (n : Int)
  | long (n : Int)
  | double (x : Double)
  | timestamp (m : Moment)
  | string (s : String)
  | blob (bytes : Bytes)
  | binary (bytes : Bytes)
  deriving DecidableEq

namespace Value

/-- The kind of a value, whatever mark it has. -/
def kind : Value → ValueKind
  | .null => .null
  | .boolean _ => .boolean
  | .integer _ | .long _ => .integer
  | .double _ => .double
  | .timestamp _ => .timestamp
  | .string _ => .string
  | .blob _ | .binary _ => .blob

/-- Whether a value is null. -/
def isNull (v : Value) : Bool := v.kind = .null

/-- The place of a value's kind in the order of all values. -/
def rank (v : Value) : Nat :=
  match v.kind with
  | .null => 0
  | .boolean => 1
  | .integer | .double => 2
  | .timestamp => 3
  | .string => 4
  | .blob => 5

/-- Where a number lies on the line of numbers. -/
def magnitude? : Value → Option Magnitude
  | .integer n | .long n => some (.ofInt n)
  | .double x => some (.ofDouble x)
  | _ => none

/-- The bytes of a blob. -/
def bytes? : Value → Option Bytes
  | .blob bytes | .binary bytes => some bytes
  | _ => none

/-- The order of values of one rank. Timestamps compare as moments, strings by characters and blobs by
bytes. -/
def compareSame : Value → Value → Ordering
  | .boolean a, .boolean b => Ord.compare a b
  | .timestamp a, .timestamp b => a.compare b
  | .string a, .string b => List.compareLex Ord.compare a.toList b.toList
  | a, b =>
    match a.magnitude?, b.magnitude?, a.bytes?, b.bytes? with
    | some x, some y, _, _ => x.compare y
    | _, _, some x, some y => List.compareLex Ord.compare x y
    | _, _, _, _ => .eq

/-- The order of backend values: first by rank, then inside it. -/
def compare (a b : Value) : Ordering :=
  (Ord.compare a.rank b.rank).then (compareSame a b)

/-- Whether two values are of one kind and equal: neither is below the other, but a binary is not a
plain blob, and an ambiguous reading of a clock is not one of another clock. -/
def same (a b : Value) : Bool :=
  match a, b with
  | .blob _, .binary _ | .binary _, .blob _ => false
  | .timestamp x, .timestamp y => x.same y
  | _, _ => a.kind = b.kind && compare a b = .eq

end Value

end RecordStore
