import RecordStore.CanonicalJson
import RecordStore.Datum.ToValue

/-!
# Column types

The semantic types of columns, and how domain data become backend values of a declared type. Which
types exist is a `Registry`, a table of converters that callers may copy and extend. Null is stored
as null in every column, and a ready backend value is stored as it is.
-/

namespace RecordStore

/-- The semantic type of a column. -/
inductive ColumnType
  | string
  | integer
  | long
  | double
  | boolean
  | timestamp
  | version
  | blob
  | message
  deriving DecidableEq

namespace ColumnType

/-- The name by which types are sorted and looked up. -/
def name : ColumnType → String
  | .string => "string"
  | .integer => "integer"
  | .long => "long"
  | .double => "double"
  | .boolean => "boolean"
  | .timestamp => "timestamp"
  | .version => "version"
  | .blob => "blob"
  | .message => "message"

/-- How messages name a column type. -/
def label : ColumnType → String
  | .string => "ColumnType.STRING"
  | .integer => "ColumnType.INTEGER"
  | .long => "ColumnType.LONG"
  | .double => "ColumnType.DOUBLE"
  | .boolean => "ColumnType.BOOLEAN"
  | .timestamp => "ColumnType.TIMESTAMP"
  | .version => "ColumnType.VERSION"
  | .blob => "ColumnType.BLOB"
  | .message => "ColumnType.MESSAGE"

/-- All types. -/
def all : List ColumnType :=
  [.string, .integer, .long, .double, .boolean, .timestamp, .version, .blob, .message]

/-- The type of a name. -/
def ofName? (text : String) : Option ColumnType := all.find? fun t => t.name = text

end ColumnType

/-- The value of a member of an enumeration; any other datum itself. -/
def Datum.plain : Datum → Datum
  | .tagged member => member
  | d => d

/-- The error of a datum that does not fit a column type, or the undeclared one. -/
def Datum.misfit (d : Datum) (column : String) : Error :=
  .showing d.isWritable (.columnType column d)

/-- The error of a datum that does not fit a column type. -/
def ColumnType.misfit (t : ColumnType) (d : Datum) : Error := d.misfit t.label

namespace ColumnType

/-- A converter from domain data to backend values. -/
abbrev Converter : Type := Datum → Except Error Value

/-- A text, or a universally unique identifier as its text. -/
def toString (d : Datum) : Except Error Value :=
  match d.plain with
  | .text s | .uuid s => .ok (.string s)
  | other => .error (misfit .string other)

/-- The conversion of the two integer types, which differ in name only. -/
def toInteger (t : ColumnType) (d : Datum) : Except Error Value :=
  match d.plain with
  | .integer n => .ok (.integer n)
  | .long n => .ok (.long n)
  | other => .error (misfit t other)

/-- A number as the double nearest to it. -/
def toDouble (d : Datum) : Except Error Value :=
  match d.plain with
  | .integer n | .long n => (Datum.doubleOfInt n).map .double
  | .double x => .ok (.double x)
  | .decimal s => (Datum.doubleOfDecimal (.decimal s) s).map .double
  | other => .error (misfit .double other)

/-- A boolean and nothing else: members of enumerations are not looked into. -/
def toBoolean (d : Datum) : Except Error Value :=
  match d with
  | .boolean b => .ok (.boolean b)
  | _ => .error (misfit .boolean d)

/-- A point of time; one without an offset is in universal time. -/
def toTimestamp (d : Datum) : Except Error Value :=
  match d with
  | .clock _ | .moment _ => Value.ofTimestamp d
  | _ => .error (misfit .timestamp d)

/-- A version is a whole number or an object with one. -/
def toVersion (d : Datum) : Except Error Value :=
  match d with
  | .integer n | .version (.integer n) => .ok (.integer n)
  | .long n | .version (.long n) => .ok (.long n)
  | .model _ fields _ =>
    match Assoc.get? "number" fields with
    | some (.integer n) => .ok (.integer n)
    | some (.long n) => .ok (.long n)
    | _ => .error (misfit .version d)
  | _ => .error (misfit .version d)

/-- Bytes of any sort. -/
def toBlob (d : Datum) : Except Error Value :=
  match d with
  | .bytes b | .buffer b | .view b | .binary b => .ok (.blob b)
  | _ => .error (misfit .blob d)

/-- A message is stored as its canonical JSON text, a text as it is. -/
def toMessage (d : Datum) : Except Error Value :=
  match d with
  | .text s => .ok (.string s)
  | _ =>
    match d.canonicalJson with
    | .ok s => .ok (.string s)
    | .error (.badType _) => .error (misfit .message d)
    | .error e => .error e

/-- The built-in converter of a type. -/
def converter : ColumnType → Converter
  | .string => toString
  | .integer => toInteger .integer
  | .long => toInteger .long
  | .double => toDouble
  | .boolean => toBoolean
  | .timestamp => toTimestamp
  | .version => toVersion
  | .blob => toBlob
  | .message => toMessage

end ColumnType

/-- A table of converters by column type. -/
structure Registry where
  converters : List (ColumnType × ColumnType.Converter)

namespace Registry

/-- The built-in converters of the given types. -/
def ofTypes (types : List ColumnType) : Registry := ⟨types.map fun t => (t, t.converter)⟩

/-- The table of all built-in converters. -/
def default : Registry := ofTypes ColumnType.all

/-- The converter of a type, if the table has one. -/
def get? (r : Registry) (t : ColumnType) : Option ColumnType.Converter := Assoc.get? t r.converters

/-- Whether the table has a converter of a type. -/
def has (r : Registry) (t : ColumnType) : Bool := (r.get? t).isSome

/-- The table with a converter of a type, in place of the one that was there. -/
def register (r : Registry) (t : ColumnType) (c : ColumnType.Converter) : Registry :=
  ⟨Assoc.put t c r.converters⟩

/-- The types of the table in the order of their names. -/
def supported (r : Registry) : List String :=
  Error.sortTexts (r.converters.map fun entry => entry.1.name)

/-- The backend value of a datum for a column of a type; without a declared type the kind follows
from the datum. -/
def toValue (r : Registry) (d : Datum) (t : Option ColumnType) : Except Error Value :=
  match d, t with
  | .null, _ => .ok .null
  | .value v, _ => .ok v
  | _, none =>
    match Value.infer d.plain with
    | .error (.badType _) => .error (d.misfit "<undeclared>")
    | other => other
  | _, some t =>
    match r.get? t with
    | none => .error (t.misfit d)
    | some convert => convert d

end Registry

end RecordStore
