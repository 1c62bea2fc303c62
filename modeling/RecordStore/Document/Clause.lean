import RecordStore.Document.Field
import RecordStore.Filter.Basic

/-!
# Query documents

The conditions that a document database understands, and the compilation of native queries into
them. Null lies below every other value and a missing field never matches, while the database's own
comparison with null also takes missing fields and its ordered comparisons never cross types;
so comparisons with null become tests of a field's presence and type.
-/

namespace RecordStore

/-- A condition on documents. -/
inductive Clause
  /-- The condition that every document meets. -/
  | everything
  /-- The identifier is one of these; of none, no document meets it. -/
  | oneOf (ids : List String)
  /-- A field is this text, or a list with it. -/
  | equals (field text : String)
  /-- A field compares so with a value of its own type. -/
  | compares (field : Datum) (operator : Comparison) (operand : Value)
  | isNull (field : Datum)
  | isPresent (field : Datum)
  /-- A field is there and is not null. -/
  | isFilled (field : Datum)
  | all (parts : List Clause)
  | any (parts : List Clause)

namespace Clause

/-- The condition that no document meets. -/
def nothing : Clause := .oneOf []

/-- How the database writes a comparison. -/
def comparisonWord : Comparison → String
  | .equal => "$eq"
  | .greater => "$gt"
  | .greaterOrEqual => "$gte"
  | .less => "$lt"
  | .lessOrEqual => "$lte"

/-- The test for a field that holds null. -/
def nullType : Datum := .ofFields [("$type", .text "null")]

mutual

/-- The query document of a condition. -/
def toDatum : Clause → Datum
  | .everything => .ofFields []
  | .oneOf ids =>
    .ofFields [(Document.idField, .ofFields [("$in", .list (ids.map .text))])]
  | .equals field text => .ofFields [(field, .text text)]
  | .compares field operator operand =>
    .dict [(field, .ofFields [(comparisonWord operator, operand.toField)])]
  | .isNull field => .dict [(field, nullType)]
  | .isPresent field => .dict [(field, .ofFields [("$exists", .boolean true)])]
  | .isFilled field =>
    .dict [(field, .ofFields [("$exists", .boolean true), ("$not", nullType)])]
  | .all parts => .ofFields [("$and", .list (toData parts))]
  | .any parts => .ofFields [("$or", .list (toData parts))]

/-- The query documents of conditions. -/
def toData : List Clause → List Datum
  | [] => []
  | part :: rest => toDatum part :: toData rest

end

/-- Whether every document meets a condition, by its form. -/
def isEverything : Clause → Bool
  | .everything => true
  | _ => false

/-- A condition on a field that may be the key of an entry. -/
def onField (field : Datum) (clause : Clause) : Except Error Clause :=
  field.checkHashable.map fun _ => clause

/-- The comparison of a field with null. -/
def ofNull (field : Datum) : Symbol Comparison → Except Error Clause
  -- Nothing lies below null, and whatever is there is at least null.
  | .known .equal | .known .lessOrEqual => onField field (.isNull field)
  | .known .greaterOrEqual => onField field (.isPresent field)
  | .known .greater => onField field (.isFilled field)
  | .known .less | .unknown _ => .ok nothing

/-- The comparison of a field with a value. -/
def ofProperty (field : Datum) (operator : Symbol Comparison) (operand : Value) :
    Except Error Clause :=
  if operand.isNull then ofNull field operator
  else
    match operator with
    | .known c => onField field (.compares field c operand)
    | .unknown given => do
      given.checkHashable
      .error (.showing given.isWritable (.document .query (.unsupportedComparison given.show)))

/-- The error of a filter that cannot be compiled. -/
def uncompilable (filter : Filter) : Error :=
  .showing filter.isWritable (.document .query (.uncompilable filter.show))

mutual

/-- The condition of a filter inside another one. Parts are compiled before the operator is looked
at. -/
def ofPart : Filter → Except Error Clause
  | .nothing => .ok nothing
  | .property column operator operand => ofProperty column operator operand
  | .composite (.known .and) [] => .ok .everything
  | .composite _ [] => .ok nothing
  | .composite operator parts => do
    let compiled ← ofParts parts
    match operator with
    | .known .and => return .all compiled
    | .known .or => return .any compiled
    | .unknown _ => .error (uncompilable (.composite operator parts))
  | .everything => .error (uncompilable .everything)
  | .unsupported => .error (uncompilable .unsupported)

/-- The conditions of the parts of a filter; the first one that cannot be compiled ends this. -/
def ofParts : List Filter → Except Error (List Clause)
  | [] => .ok []
  | part :: rest => do return (← ofPart part) :: (← ofParts rest)

end

/-- The condition of a filter. -/
def ofFilter : Filter → Except Error Clause
  | .everything => .ok .everything
  | filter => ofPart filter

/-- The whole condition of a query: the kind, the ancestor, and the filter if it is not empty. -/
def ofQuery (q : NativeQuery) : Except Error Clause := do
  let kind := Clause.equals Document.kindField q.kind
  let ancestor := q.ancestor.toList.map fun k => equals Document.ancestorsField k.toText
  let compiled ← ofFilter q.filter
  -- A filter that every document meets is left out, so that no empty condition is sent.
  let filter := if compiled.isEverything then [] else [compiled]
  match ancestor ++ filter with
  | [] => return kind
  | rest => return .all (kind :: rest)

end Clause

/-- A key of a database's sort: a field and a direction. -/
abbrev SortKey := String × Direction

namespace SortKey

/-- How the database writes a direction. -/
def number : Direction → Int
  | .ascending => 1
  | .descending => -1

/-- A sort as a datum: pairs of a field and one or minus one. -/
def toDatum (keys : List SortKey) : Datum :=
  .list (keys.map fun key => .tuple [.text key.1, .integer (number key.2)])

/-- The sort of a query. The identifier stands last unless the query sorts by it, so that pages are
stable. -/
def ofQuery (q : NativeQuery) : List SortKey :=
  let keys := q.sort.map fun o => (o.column, o.direction)
  if keys.any fun key => key.1 = Document.idField then keys
  else keys ++ [(Document.idField, .ascending)]

end SortKey

end RecordStore
