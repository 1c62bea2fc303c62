import RecordStore.Query
import RecordStore.Datum.ToValue

/-!
# Document fields

How backend values are written into the fields of documents and read back. A document database keeps
times only to the millisecond, so a timestamp is stored as its microseconds since the beginning of
1970; that it is not a plain integer is noted beside the fields.
-/

namespace RecordStore

/-- A document: named fields in the order in which they were written. -/
abbrev Document := List (String × Datum)

namespace Document

/-- The field of the text of a record's key. -/
def idField : String := "_id"

/-- The field of a record's kind. -/
def kindField : String := "_kind"

/-- The field of the texts of the keys above. -/
def ancestorsField : String := "_ancestors"

/-- The field of the links of a record's key. -/
def pathField : String := "_path"

/-- The field of the encoded record. -/
def payloadField : String := "_payload"

/-- The field of the names of the columns that hold timestamps. -/
def timestampsField : String := "_timestamps"

/-- The fields that no column may be named after. -/
def reserved : List String :=
  [idField, kindField, ancestorsField, pathField, payloadField, timestampsField]

/-- Whether a column may not have this name. -/
def isReserved (name : String) : Bool := reserved.contains name

/-- The datum in a field; a missing field reads as null. -/
def field (doc : Document) (name : String) : Datum := (Assoc.get? name doc).getD .null

/-- The fields of a dictionary. -/
def ofEntries (entries : List (Datum × Datum)) : Document :=
  entries.map fun entry => (entry.1.display, entry.2)

/-- A datum that is a document. -/
def ofDatum (d : Datum) : Except Error Document :=
  match d with
  | .dict entries => .ok (ofEntries entries)
  | _ => .error (.noAttribute d.fullTypeName "get")

end Document

namespace Value

/-- The datum that a field holds for a value. -/
def toField : Value → Datum
  | .integer n | .long n => .long n
  | .timestamp m => .long m.micros
  | .blob b | .binary b => .binary b
  | v => .ofValue v

/-- Whether a number of days fits a signed word of 32 bits. -/
def isWordOfDays (days : Int) : Bool := -0x80000000 ≤ days && days < 0x80000000

/-- The timestamp after so many microseconds since the beginning of 1970. -/
def ofMicros (n : Int) : Except Error Value :=
  -- A span of time holds its days in a word of 32 bits, and no more than nine digits of them.
  let days := n / (Calendar.microsPerDay : Int)
  if !isWordOfDays days then .error (.outOfRange .spanTooLong)
  else if 999999999 < days.natAbs then .error (.outOfRange (.spanOfDays days))
  else
    match Moment.ofMicros? n with
    | some m => .ok (.timestamp m)
    | none => .error (.outOfRange .dateOutOfRange)

/-- The value of a whole number in a field, a timestamp or an integer. -/
def ofWhole (timestamp : Bool) (n : Int) : Except Error Value :=
  if timestamp then ofMicros n else .ok (.integer n)

/-- The value that a field holds; a whole number is read as a timestamp if the field is noted as
one. -/
def ofField (timestamp : Bool) (d : Datum) : Except Error Value :=
  match d with
  | .null => .ok .null
  | .boolean b => .ok (.boolean b)
  | .integer n | .long n => ofWhole timestamp n
  | .double x => .ok (.double x)
  | .clock _ | .moment _ => ofTimestamp d
  | .text s => .ok (.string s)
  | .bytes b | .buffer b | .binary b => .ok (.blob b)
  | _ => .error (.document .storage (.unsupportedType d.typeName))

end Value

end RecordStore
