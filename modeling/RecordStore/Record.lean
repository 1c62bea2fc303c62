import RecordStore.Assoc
import RecordStore.Key

/-!
# Stored records

A record as a backend holds it: a key, indexed columns in the order in which they were written, and
an encoded payload. Backends hand records out in pages.
-/

namespace RecordStore

/-- A record as a backend holds it. -/
structure Record where
  key : Key
  columns : List (String × Value)
  payload : Bytes
  deriving DecidableEq

namespace Record

/-- Whether a record has a column, be it null. -/
def has (r : Record) (column : String) : Bool := Assoc.contains column r.columns

/-- The value of a column; a missing column reads as null. -/
def get (r : Record) (column : String) : Value := (Assoc.get? column r.columns).getD .null

/-- The value of the column that a datum names, if the record has it. -/
def find? (r : Record) (column : Datum) : Except Error (Option Value) := do
  return (← column.name?).bind fun name => Assoc.get? name r.columns

/-- Whether two lists of columns hold the same values, whatever their order. -/
def sameColumns (a b : List (String × Value)) : Bool :=
  a.length = b.length && a.all fun (name, value) => (Assoc.get? name b).any fun v => v.same value

/-- Whether two records have one key, the same columns and one payload. -/
def same (a b : Record) : Bool :=
  a.key = b.key && sameColumns a.columns b.columns && a.payload = b.payload

end Record

/-- What one call to a backend returns: some records, where to go on, and whether there are more. -/
structure Page where
  records : List Record := []
  cursor : Option String := none
  more : Bool := false

end RecordStore
