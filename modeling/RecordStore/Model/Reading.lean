import RecordStore.Json.Reader
import RecordStore.Model.Scalar
import RecordStore.Model.Schema

/-!
# Model instances in JSON

Reads model instances from the JSON texts of payloads. Unknown members are passed over, missing ones
have their defaults, and of members of one name the last counts.
-/

namespace RecordStore

namespace Model

/-- Whether a JSON value is exactly of a simple type, without any conversion. -/
def isExact (type : FieldType) (value : Json) : Bool :=
  match type, value with
  | .text, .string _ | .integer, .integer _ | .double, .double _ | .boolean, .boolean _ => true
  | _, _ => false

mutual

/-- The datum of a type in a JSON value. -/
def readType (value : Json) : FieldType → Option Datum
  | .text =>
    match value with
    | .string s => some (.text s)
    | _ => none
  | .integer => (readInteger? value).map .integer
  | .double => (readDouble? value).map .double
  | .boolean => (readBoolean? value).map .boolean
  | .bytes =>
    match value with
    | .string s => some (.bytes (Text.utf8 s))
    | _ => none
  | .timestamp => readStamp? value
  | .any => some (Datum.ofJson value.merged)
  | .list item =>
    match value with
    | .array items => (items.mapM fun v => readType v item).map .list
    | _ => none
  | .bareList =>
    match value with
    | .array items => some (Datum.ofJson (Json.array items).merged)
    | _ => none
  | .map item =>
    match value with
    | .object members =>
      (members.mapM fun member => (readType member.2 item).map fun d => (member.1, d)).map fun ds =>
        .ofFields (Assoc.ofList ds)
    | _ => none
  | .set item =>
    match value with
    | .array items => (items.mapM fun v => readType v item).map fun ds => .set (Datum.distinct ds)
    | _ => none
  | .frozenSet item =>
    match value with
    | .array items =>
      (items.mapM fun v => readType v item).map fun ds => .frozenSet (Datum.distinct ds)
    | _ => none
  | .tuple types =>
    match value with
    | .array items => (readEach items types).map .tuple
    | _ => none
  -- Null is taken before the inner type is asked, which may take it in another way.
  | .optional inner =>
    match value with
    | .null => some .null
    | _ => readType value inner
  | .union choices =>
    -- A choice that fits without conversion goes before one that would convert.
    match readExact value choices with
    | some d => some d
    | none => readFirst value choices
  | .literal choices => readChoice? choices value
  | .model name fields =>
    match value with
    | .object members =>
      let members := Assoc.ofList members
      (readFields members fields).map fun ds =>
        .model (.ofFields name fields) ds ((fields.map Field.name).filter fun f => Assoc.contains f members)
    | _ => none

/-- One item for each of several types. -/
def readEach (items : List Json) : List FieldType → Option (List Datum)
  | [] => if items.isEmpty then some [] else none
  | type :: types =>
    match items with
    | [] => none
    | item :: rest => do return (← readType item type) :: (← readEach rest types)

/-- The datum of the first type that the value is exactly of. -/
def readExact (value : Json) : List FieldType → Option Datum
  | [] => none
  | type :: types => if isExact type value then readType value type else readExact value types

/-- The datum of the first type that takes the value. -/
def readFirst (value : Json) : List FieldType → Option Datum
  | [] => none
  | type :: types =>
    match readType value type with
    | some d => some d
    | none => readFirst value types

/-- The fields of an object in declared order. -/
def readFields (members : List (String × Json)) : List Field → Option (List (String × Datum))
  | [] => some []
  | field :: rest => do return (← readField members field) :: (← readFields members rest)

/-- The field of an object, or its default. -/
def readField (members : List (String × Json)) : Field → Option (String × Datum)
  | .mk name type initial =>
    match Assoc.get? name members with
    | some value => (readType value type).map fun d => (name, d)
    | none => initial.map fun d => (name, d)

end

end Model

namespace Schema

/-- The instance that a JSON text in UTF-8 holds. -/
def read? (s : Schema) (payload : Bytes) : Option Datum := do
  let text ← Text.ofUtf8? payload
  let value ← Json.readStrict? text
  Model.readType value s.type

end Schema

end RecordStore
