import RecordStore.CanonicalJson
import RecordStore.Document.Field
import RecordStore.Record

/-!
# Records as documents

A stored record as a document: columns become fields of their own, so that they can be indexed and
sorted, and the reserved fields hold the key with its whole chain, the payload, and which columns
are timestamps. Reading a document back gives the record that was written.
-/

namespace RecordStore

namespace Key

/-- The pairs of kinds and names of a path, as a datum. -/
def pathDatum (k : Key) : Datum :=
  .list (k.path.map fun step => .list [.ofJson step.kind, .ofJson step.name])

/-- The kind and the name that a pair holds, if neither is empty. -/
def pairOf? (d : Datum) : Option (Datum × Datum) :=
  match d.elements with
  | .ok [kind, name] => if kind.isTruthy && name.isTruthy then some (kind, name) else none
  | _ => none

/-- The kind and the name of a pair as JSON values. -/
def labels (pair : Datum × Datum) : Except Error (Json × Json) := do
  return (← pair.1.toPlainJson, ← pair.2.toPlainJson)

/-- The error of a datum that is no stored path. -/
def malformedPath (d : Datum) : Error :=
  .showing d.isWritable (.document .storage (.malformedPath d))

/-- The key of a stored path, the topmost link first. -/
def ofPathDatum (d : Datum) : Except Error Key := do
  match d.elements.toOption.bind fun items => items.mapM pairOf? with
  | none => .error (malformedPath d)
  | some pairs =>
    match ← Key.ofPath (← pairs.mapM labels) with
    | none => .error (malformedPath d)
    | some key => return key

end Key

namespace Record

/-- The names of the columns that hold timestamps, in alphabetical order. -/
def timestampColumns (r : Record) : List String :=
  Error.sortTexts ((r.columns.filter fun column => column.2.kind = .timestamp).map Prod.fst)

/-- The reserved fields of a record's document. -/
def reservedFields (r : Record) : Document :=
  [(Document.idField, .text r.key.toText),
    (Document.kindField, .ofJson r.key.kind),
    (Document.ancestorsField, .list (r.key.ancestors.map fun k => .text k.toText)),
    (Document.pathField, r.key.pathDatum),
    (Document.payloadField, .binary r.payload),
    (Document.timestampsField, .list (r.timestampColumns.map .text))]

/-- The columns that have the names of reserved fields, in alphabetical order. -/
def reservedColumns (r : Record) : List String :=
  Error.sortTexts ((Assoc.keys r.columns).filter Document.isReserved)

/-- The document of a record; no column may have the name of a reserved field. -/
def toDocument (r : Record) : Except Error Document :=
  match r.reservedColumns with
  | [] => .ok (r.reservedFields ++ r.columns.map fun column => (column.1, column.2.toField))
  | clash => .error (.document .storage (.reservedColumns clash))

end Record

namespace Document

/-- The names noted as those of timestamps. -/
def timestamps (doc : Document) : Except Error (List String) := do
  let noted := doc.field timestampsField
  if noted.isTruthy then
    let names ← (← noted.elements).mapM Datum.name?
    return names.filterMap id
  else return []

/-- The columns in the fields of a document. -/
def columns (timestamps : List String) (doc : Document) : Except Error (List (String × Value)) :=
  (doc.filter fun field => !isReserved field.1).mapM fun (name, d) =>
    return (name, ← Value.ofField (timestamps.contains name) d)

/-- The payload of a document; a missing or empty one reads as no bytes. -/
def payload (doc : Document) : Except Error Bytes :=
  let d := doc.field payloadField
  if d.isTruthy then d.toBytes else .ok []

/-- The record of a document. -/
def toRecord (doc : Document) : Except Error Record := do
  let columns ← doc.columns (← doc.timestamps)
  let key ← Key.ofPathDatum (doc.field pathField)
  return ⟨key, columns, ← doc.payload⟩

end Document

end RecordStore
