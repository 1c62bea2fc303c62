import RecordStore.Plan

/-!
# Record storage

Reads and writes the records of one type. Writes encode all records before the backend sees the
first one; a single record is read by its identifier whatever its lifecycle; everything else is read
by queries.
-/

namespace RecordStore

/-- A storage for records of one type. -/
structure Storage (α : Type) where
  reader : Reader α
  /-- The identifier of a record. -/
  idOf : α → Datum

namespace Storage

variable {σ α : Type}

/-- The layout of the records. -/
def layout (s : Storage α) : Layout := s.reader.layout

/-- Writes records; nothing is written unless all of them can be encoded. -/
def writeAll (s : Storage α) (b : Backend σ) (records : List α) (w : σ) : Outcome σ Unit :=
  match records.mapM s.reader.codec.encode with
  | .error e => (.error e, w)
  | .ok [] => (.ok (), w)
  | .ok stored => b.put stored w

/-- Writes a record. -/
def write (s : Storage α) (b : Backend σ) (record : α) (w : σ) : Outcome σ Unit :=
  s.writeAll b [record] w

/-- The stored record of an identifier, with its key. -/
def find (s : Storage α) (b : Backend σ) (id : Datum) (w : σ) : Outcome σ (Key × Option Record) :=
  match s.layout.keyOf id with
  | .error e => (.error e, w)
  | .ok key =>
    match b.lookup [key] w with
    | (.error e, w) => (.error e, w)
    | (.ok slots, w) => (.ok (key, slots.head?.join), w)

/-- The record of an identifier with the fields of a mask, if there is one. -/
def read (s : Storage α) (b : Backend σ) (id : Datum) (mask : FieldMask) (w : σ) :
    Outcome σ (Option α) :=
  match s.find b id w with
  | (.error e, w) => (.error e, w)
  | (.ok (_, none), w) => (.ok none, w)
  | (.ok (_, some stored), w) =>
    ((s.reader.codec.decode stored).map fun a => some (s.reader.codec.mask mask a), w)

/-- A run of a query. -/
def readAll (s : Storage α) (query : RecordQuery) : Reading := .unopened (s.reader.prepare query)

/-- Removes the record of an identifier, and says whether there was one. -/
def delete (s : Storage α) (b : Backend σ) (id : Datum) (w : σ) : Outcome σ Bool :=
  match s.find b id w with
  | (.error e, w) => (.error e, w)
  | (.ok (_, none), w) => (.ok false, w)
  | (.ok (key, some _), w) =>
    match b.delete [key] w with
    | (.error e, w) => (.error e, w)
    | (.ok (), w) => (.ok true, w)

/-- The storage's reader without the predicate of active records. -/
def unfiltered (s : Storage α) : Reader α :=
  { s.reader with config := { s.reader.config with applyActiveFilter := false } }

/-- The identifiers of all records, at most `count` of them, and the failure that ended the run. -/
def index (s : Storage α) (b : Backend σ) (count : Nat) (w : σ) :
    (List Datum × Option Error) × σ :=
  match (Reading.unopened (s.unfiltered.prepare {})).take s.unfiltered b count w with
  | ((records, failure), _, w) => ((records.map s.idOf, failure), w)

end Storage

end RecordStore
