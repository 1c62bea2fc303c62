import RecordStore.Assoc
import RecordStore.Datum.Same

/-!
# Model schemas

The types of the fields of models, with their defaults. A field without a default is required; when
it is cleared it holds the empty value of its type. A default is one value: a factory, which makes a
new value for each instance, is modelled by what it makes as long as that is always the same.
-/

namespace RecordStore

mutual

/-- The type of a field. -/
inductive FieldType
  | text
  | integer
  | double
  | boolean
  | bytes
  | timestamp
  | any
  | list (item : FieldType)
  /-- A list of items of any type. -/
  | bareList
  /-- A dictionary with text keys. -/
  | map (item : FieldType)
  | set (item : FieldType)
  | frozenSet (item : FieldType)
  | tuple (items : List FieldType)
  | optional (inner : FieldType)
  | union (choices : List FieldType)
  | literal (choices : List Datum)
  | model (name : String) (fields : List Field)

/-- A field: its name, its type, and its default if it is not required. -/
inductive Field
  | mk (name : String) (type : FieldType) (initial : Option Datum)

end

namespace Field

/-- The name by which instances hold the field. -/
def name : Field → String
  | .mk name _ _ => name

/-- What the field may hold. -/
def type : Field → FieldType
  | .mk _ type _ => type

/-- The default, the same for every instance; a field without one is required. -/
def initial : Field → Option Datum
  | .mk _ _ initial => initial

end Field

/-- What instances of a model know of it. -/
def Shape.ofFields (name : String) (fields : List Field) : Shape :=
  let isDouble (field : Field) : Bool := match field.type with
    | .double => true
    | _ => false
  ⟨name, (fields.filter isDouble).map Field.name⟩

mutual

/-- The value of a cleared field of a type: the empty text, zero, false, an empty collection, the
first choice; null where the type admits it or says nothing. -/
def FieldType.empty : FieldType → Datum
  | .text => .text ""
  | .integer => .integer 0
  | .double => .double .zero
  | .boolean => .boolean false
  | .bytes => .bytes []
  | .timestamp | .any | .optional _ => .null
  | .list _ | .bareList => .list []
  | .map _ => .dict []
  | .set _ => .set []
  | .frozenSet _ => .frozenSet []
  | .tuple _ => .tuple []
  | .union choices => emptyChoice choices
  | .literal choices => choices.headD .null
  | .model name fields => .model (.ofFields name fields) (clearedFields fields) []

/-- The empty value of the first of several types. -/
def emptyChoice : List FieldType → Datum
  | [] => .null
  | choice :: _ => choice.empty

/-- All fields cleared. -/
def clearedFields : List Field → List (String × Datum)
  | [] => []
  | field :: rest => field.cleared :: clearedFields rest

/-- A cleared field: its default, or the empty value of its type. -/
def Field.cleared : Field → String × Datum
  | .mk name _ (some initial) => (name, initial)
  | .mk name type none => (name, type.empty)

end

/-- A model: its name and fields. -/
structure Schema where
  name : String
  fields : List Field

/-- The items of a list, tuple or set. -/
def itemsOf? : Datum → Option (List Datum)
  | .list items | .tuple items | .set items | .frozenSet items => some items
  | _ => none

/-- A datum as a field of a simple type holds it: a whole number that is marked in some way is a
plain one, and a number in a field of doubles is a double. -/
def FieldType.holdScalar (type : FieldType) (d : Datum) : Datum :=
  match type, d with
  | .integer, .long n => .integer n
  | .integer, .boolean b => .integer (if b then 1 else 0)
  | .double, .integer n | .double, .long n => ((Double.ofInt? n).map Datum.double).getD d
  | .double, .boolean b => ((Double.ofInt? (if b then 1 else 0)).map Datum.double).getD d
  | .bytes, .buffer b => .bytes b
  | .timestamp, .date t => .clock ⟨t, Calendar.midnight⟩
  | .literal choices, _ => (choices.find? (·.same d)).getD d
  | _, _ => d

mutual

/-- A datum as a field of a type holds it. -/
def FieldType.hold (d : Datum) : FieldType → Datum
  | .list item => ((itemsOf? d).map fun ds => Datum.list (ds.map item.hold)).getD d
  | .bareList => ((itemsOf? d).map Datum.list).getD d
  | .map item =>
    match d with
    | .dict entries => .dict (entries.map fun entry => (entry.1, item.hold entry.2))
    | _ => d
  | .set item => ((itemsOf? d).map fun ds => Datum.set (Datum.distinct (ds.map item.hold))).getD d
  | .frozenSet item =>
    ((itemsOf? d).map fun ds => Datum.frozenSet (Datum.distinct (ds.map item.hold))).getD d
  | .tuple types => ((itemsOf? d).map fun ds => Datum.tuple (holdEach ds types)).getD d
  | .optional inner =>
    match d with
    | .null => .null
    | _ => inner.hold d
  | .union choices => holdFirst d choices
  | type => type.holdScalar d

/-- Each of several data as the type in its place holds it. -/
def holdEach (ds : List Datum) : List FieldType → List Datum
  | [] => ds
  | type :: types =>
    match ds with
    | [] => []
    | d :: rest => type.hold d :: holdEach rest types

/-- A datum as the first type that changes nothing but its mark holds it. -/
def holdFirst (d : Datum) : List FieldType → Datum
  | [] => d
  | type :: types =>
    match type, d with
    | .integer, .long _ => type.hold d
    | _, _ => holdFirst d types

end

namespace Schema

/-- The type of fields that hold instances of a model. -/
def type (s : Schema) : FieldType := .model s.name s.fields

/-- What instances of a model know of it. -/
def shape (s : Schema) : Shape := .ofFields s.name s.fields

/-- The field of a name. -/
def field? (s : Schema) (name : String) : Option Field := s.fields.find? fun f => f.name = name

/-- The names of the fields that are given, in declared order. -/
def givenNames (s : Schema) (given : List (String × Datum)) : List String :=
  (s.fields.map Field.name).filter fun name => Assoc.contains name given

/-- The instance that holds the given fields and has all others cleared. -/
def fill (s : Schema) (given : List (String × Datum)) : Datum :=
  .model s.shape (s.fields.map fun f => (f.name, (Assoc.get? f.name given).getD f.cleared.2))
    (s.givenNames given)

/-- The instance of some given fields, the others having their defaults. -/
def construct (s : Schema) (given : List (String × Datum)) : Datum :=
  s.fill (given.map fun (name, d) =>
    (name, ((s.field? name).map fun f => f.type.hold d).getD d))

end Schema

/-- The known models. -/
abbrev Catalog : Type := List Schema

/-- The model of a name. -/
def Catalog.find? (c : Catalog) (name : String) : Option Schema :=
  List.find? (fun s => s.name = name) c

end RecordStore
