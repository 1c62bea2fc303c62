import RecordStore.Codec
import RecordStore.Model.Mask
import RecordStore.Model.Reading

/-!
# The codec of models

Stores a model instance as its JSON text, and the columns of a layout beside it. A mask keeps the
listed fields and the identifier; every other field is cleared.
-/

namespace RecordStore.Model

/-- Payloads write doubles positionally from `0.00001` up to sixteen digits before the point; what
is not a finite number is null. -/
def payloadDoubles : DoubleNotation := ⟨-5, 16, true, 1, "null", "null", "null"⟩

/-- The payload of an instance: its fields in declared order as compact JSON. -/
def payload (d : Datum) : Except Error Bytes := do
  return Text.utf8 (Json.write ⟨false, payloadDoubles⟩ (← d.dump))

/-- The backend values of the columns of a layout. -/
def columnValues (registry : Registry) (layout : Layout) (d : Datum) :
    Except Error (List (String × Value)) :=
  layout.columns.mapM fun c => do return (c.name, ← registry.toValue (c.read d) (some c.type))

/-- The stored form of an instance. -/
def encode (registry : Registry) (layout : Layout) (d : Datum) : Except Error Record := do
  let key ← layout.keyOf (layout.idOf d)
  let columns ← columnValues registry layout d
  match payload d with
  | .ok payload => return ⟨key, columns, payload⟩
  | .error _ => .error (.codec (.encode key.toText))

/-- The instance of a stored record. -/
def decode (schema : Schema) (r : Record) : Except Error Datum :=
  match schema.read? r.payload with
  | some d => .ok d
  | none => .error (.codec (.decode r.key.toText))

/-- The instance with the fields of a mask and its identifier. -/
def applyMask (catalog : Catalog) (idField : String) (m : FieldMask) (d : Datum) : Datum :=
  let parts := MaskTree.ofPaths m.paths
  let parts := if Assoc.contains idField parts then parts else parts ++ [(idField, .leaf)]
  MaskTree.keep catalog d (.branch parts)

/-- The codec of the instances of a schema. -/
def codec (catalog : Catalog) (schema : Schema) (registry : Registry) (layout : Layout)
    (idField : String) : Codec Datum where
  encode := encode registry layout
  decode := decode schema
  applyMask := applyMask catalog idField
  activeFilter := Codec.activeFilterOf layout

end RecordStore.Model
