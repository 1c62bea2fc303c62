import RecordStore.Error

/-!
# What data consist of

The members of data that can be gone through one by one.
-/

namespace RecordStore.Datum

/-- The members of a datum that can be gone through: the items of a collection, the keys of a
dictionary, the characters of a text, the bytes of a byte string, the fields of a model with their
names. -/
def elements (d : Datum) : Except Error (List Datum) :=
  match d with
  | .list items | .tuple items | .set items | .frozenSet items => .ok items
  | .dict entries => .ok (entries.map Prod.fst)
  | .text s => .ok (s.toList.map fun c => .text (String.singleton c))
  | .bytes b | .buffer b | .view b | .binary b => .ok (b.map fun byte => .integer byte.toNat)
  | .model _ fields _ => .ok (fields.map fun field => .tuple [.text field.1, field.2])
  | _ => .error (.badType (.notIterable d.fullTypeName))

/-- Whether a datum has a length. -/
def hasLength : Datum → Bool
  | .model _ _ _ => false
  | d => d.elements.isOk

end RecordStore.Datum
