import RecordStore.Calendar.Reading
import RecordStore.Json.Basic
import RecordStore.Value

/-!
# Domain data

The open world of data that callers hand in: identifiers, comparison values, fields of records,
decoded documents. A backend stores only a few of these; which ones, and as what, is decided by the
type of the column they go to.
-/

namespace RecordStore

/-- What a model instance knows of its model. -/
structure Shape where
  name : String
  /-- The fields that are declared to hold doubles. -/
  doubles : List String
  deriving DecidableEq

/-- A piece of domain data. -/
inductive Datum
  | null
  | boolean (b : Bool)
  | integer (n : Int)
  /-- A whole number marked as a 64-bit one. -/
  | long (n : Int)
  | double (x : Double)
  | text (s : String)
  | bytes (bytes : Bytes)
  /-- Bytes that can be changed in place. -/
  | buffer (bytes : Bytes)
  /-- A view into bytes held elsewhere. -/
  | view (bytes : Bytes)
  /-- Bytes marked as binary data of a document. -/
  | binary (bytes : Bytes)
  /-- A reading of an unnamed clock. -/
  | clock (reading : DateTime)
  | moment (moment : Moment)
  | date (date : Date)
  /-- A decimal number by its text. -/
  | decimal (text : String)
  /-- A universally unique identifier by its text. -/
  | uuid (text : String)
  | list (items : List Datum)
  | tuple (items : List Datum)
  | set (items : List Datum)
  | frozenSet (items : List Datum)
  | dict (entries : List (Datum × Datum))
  /-- A member of an enumeration that is of no data type itself, with its value. A member of an
  enumeration of texts or of whole numbers is a text or a number, and is one here as well. -/
  | tagged (member : Datum)
  /-- An object with a number. -/
  | version (number : Datum)
  /-- An object of a type that nothing here knows. -/
  | unsupported
  /-- A model instance: its fields in declared order, and the names of those that were given. -/
  | model (shape : Shape) (fields : List (String × Datum)) (given : List String)
  /-- A ready backend value. -/
  | value (v : Value)
  deriving Inhabited

namespace Datum

/-- The name of a datum's type in messages. -/
def typeName : Datum → String
  | .null => "NoneType"
  | .boolean _ => "bool"
  | .integer _ => "int"
  | .long _ => "Int64"
  | .double _ => "float"
  | .text _ => "str"
  | .bytes _ => "bytes"
  | .buffer _ => "bytearray"
  | .view _ => "memoryview"
  | .binary _ => "Binary"
  | .clock _ | .moment _ => "datetime"
  | .date _ => "date"
  | .decimal _ => "Decimal"
  | .uuid _ => "UUID"
  | .list _ => "list"
  | .tuple _ => "tuple"
  | .set _ => "set"
  | .frozenSet _ => "frozenset"
  | .dict _ => "dict"
  | .tagged _ => "Tag"
  | .version _ => "Version"
  | .unsupported => "Opaque"
  | .model shape _ _ => shape.name
  | .value _ => "DsValue"

/-- The full name of a datum's type, as messages about its use give it. -/
def fullTypeName : Datum → String
  | .clock _ | .moment _ => "datetime.datetime"
  | .date _ => "datetime.date"
  | .decimal _ => "decimal.Decimal"
  | d => d.typeName

/-- The whole number of an integer; a boolean is none. -/
def integer? : Datum → Option Int
  | .integer n | .long n => some n
  | _ => none

/-- The bytes of any of the four forms of byte strings. -/
def bytes? : Datum → Option Bytes
  | .bytes b | .buffer b | .view b | .binary b => some b
  | _ => none

/-- The value under a text key of a list of entries. -/
def lookup (name : String) : List (Datum × Datum) → Option Datum
  | [] => none
  | (.text key, item) :: rest => if key = name then some item else lookup name rest
  | _ :: rest => lookup name rest

/-- A dictionary with text keys. -/
def ofFields (fields : List (String × Datum)) : Datum :=
  .dict (fields.map fun field => (.text field.1, field.2))

/-- Whether a datum counts as true: it is not null, false, zero or empty. -/
def isTruthy : Datum → Bool
  | .null => false
  | .boolean b => b
  | .integer n | .long n => n ≠ 0
  | .double x => !x.isZero
  | .text s => s ≠ ""
  | .bytes b | .buffer b | .view b | .binary b => b ≠ []
  | .decimal s => !((s.toList.takeWhile fun c => c ≠ 'E' && c ≠ 'e').all fun c =>
      c = '0' || c = '.' || c = '-' || c = '+')
  | .list items | .tuple items | .set items | .frozenSet items => !items.isEmpty
  | .dict entries => !entries.isEmpty
  | _ => true

/-- The backend value of a datum that is one already. -/
def value? : Datum → Option Value
  | .value v => some v
  | _ => none

/-- The payload of a backend value. -/
def ofValue : Value → Datum
  | .null => .null
  | .boolean b => .boolean b
  | .integer n => .integer n
  | .long n => .long n
  | .double x => .double x
  | .timestamp m => .moment m
  | .string s => .text s
  | .blob b => .bytes b
  | .binary b => .binary b

mutual

/-- The datum of a JSON value. -/
def ofJson : Json → Datum
  | .null => .null
  | .boolean b => .boolean b
  | .integer n => .integer n
  | .double x => .double x
  | .string s => .text s
  | .array items => .list (ofItems items)
  | .object members => .dict (ofMembers members)

/-- The data of the items of an array. -/
def ofItems : List Json → List Datum
  | [] => []
  | item :: items => ofJson item :: ofItems items

/-- The entries of the members of an object; their keys are texts. -/
def ofMembers : List (String × Json) → List (Datum × Datum)
  | [] => []
  | (name, item) :: members => (.text name, ofJson item) :: ofMembers members

end

end Datum

end RecordStore
